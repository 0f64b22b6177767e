import Mathlib.Data.List.Basic
import Mathlib.Data.Nat.Basic
import Mathlib.Algebra.Group.Nat.Defs
import Fulla.Model.QueryStrings

/-!
# Host literals

The host of a URL and the address it stands for.  An IPv4 address has one to four numbers, each
decimal, octal behind `0` or hexadecimal behind `0x`, the last of which fills the bytes that are
left; an IPv6 address has eight groups of hexadecimal digits, of which `::` stands for one run of
zeros and the last two may be a dotted quad.  Other hosts are names.
-/

namespace Fulla

/-! ## Numbers -/

/-- One more digit of a base, where it is one. -/
def appendDigit (base n : Nat) (c : Char) : Option Nat :=
  ((hexValue c).filter (· < base)).map fun d => base * n + d

/-- The number that the digits of a base spell; none where one of them is no digit. -/
def numberIn (base : Nat) (digits : List Char) : Option Nat :=
  digits.foldlM (appendDigit base) 0

/-- A part of an IPv4 address. -/
def ipv4Number : List Char → Option Nat
  | [] => none
  | ['0'] => some 0
  | '0' :: c :: digits =>
    if c = 'x' ∨ c = 'X' then numberIn 16 digits else numberIn 8 (c :: digits)
  | digits => numberIn 10 digits

/-- The parts between dots; one dot may end the host. -/
def ipv4Parts (t : List Char) : List (List Char) :=
  let parts := splitChars '.' t
  if 1 < parts.length ∧ parts.getLast? = some [] then parts.dropLast else parts

/-- The numbers before the last are bytes, and the last fills the rest of the four bytes. -/
def ipv4Join (numbers : List Nat) : Option Nat :=
  let bytes := numbers.dropLast
  let last := numbers.getLast?.getD 0
  if 1 ≤ numbers.length ∧ numbers.length ≤ 4 ∧ (∀ b ∈ bytes, b < 256) ∧
      last < 256 ^ (4 - bytes.length) then
    some (bytes.foldl (fun n b => 256 * n + b) 0 * 256 ^ (4 - bytes.length) + last)
  else none

/-- The address that a dotted text names. -/
def ipv4Of (t : List Char) : Option Nat :=
  ((ipv4Parts t).mapM ipv4Number).bind ipv4Join

example : ipv4Of "127.1".toList = some 0x7f000001 := by decide
example : ipv4Of "0x7f.0.0.01.".toList = some 0x7f000001 := by decide
example : ipv4Of "2130706433".toList = some 0x7f000001 := by decide

/-! ## IPv6 -/

/-- One to four hexadecimal digits. -/
def hextet (piece : List Char) : Option Nat :=
  if 1 ≤ piece.length ∧ piece.length ≤ 4 then numberIn 16 piece else none

/-- A byte in decimal without leading zeros. -/
def decOctet (piece : List Char) : Option Nat :=
  if 1 ≤ piece.length ∧ piece.length ≤ 3 ∧ (piece.head? = some '0' → piece.length = 1) then
    (numberIn 10 piece).filter (· < 256)
  else none

/-- A dotted quad as two groups. -/
def quadGroups (piece : List Char) : Option (List Nat) :=
  match (splitChars '.' piece).mapM decOctet with
  | some [a, b, c, d] => some [256 * a + b, 256 * c + d]
  | _ => none

/-- The groups of a list of pieces. -/
def hextetsOf : List (List Char) → Option (List Nat)
  | [] => some []
  | piece :: pieces => (hextet piece).bind fun g => (hextetsOf pieces).map (g :: ·)

/-- Pieces between colons, of which the last may be a quad. -/
def groupsOf : List (List Char) → Option (List Nat)
  | [] => some []
  | [piece] => ((hextet piece).map fun g => [g]).or (quadGroups piece)
  | piece :: pieces => (hextet piece).bind fun g => (groupsOf pieces).map (g :: ·)

/-- What stands before and after the first `::`. -/
def cutDouble : List Char → Option (List Char × List Char)
  | ':' :: ':' :: rest => some ([], rest)
  | c :: rest => (cutDouble rest).map fun cut => (c :: cut.1, cut.2)
  | [] => none

/-- The pieces between colons. -/
def piecesOf (t : List Char) : List (List Char) :=
  if t = [] then [] else splitChars ':' t

/-- The eight groups of an IPv6 address. -/
def ipv6Of (t : List Char) : Option (List Nat) :=
  match cutDouble t with
  | some (left, right) =>
    (hextetsOf (piecesOf left)).bind fun before => (groupsOf (piecesOf right)).bind fun after =>
      if before.length + after.length < 8 then
        some (before ++ List.replicate (8 - (before.length + after.length)) 0 ++ after)
      else none
  | none => (groupsOf (piecesOf t)).filter (·.length = 8)

example : ipv6Of "::1".toList = some [0, 0, 0, 0, 0, 0, 0, 1] := by decide
example : ipv6Of "0:0::ffff:127.0.0.1".toList = some [0, 0, 0, 0, 0, 0xffff, 0x7f00, 1] := by
  decide

/-! ## The ranges -/

/-- The address is in the block of the first `bits` bits of `net`. -/
def inBlock (address net bits : Nat) : Bool :=
  address / 2 ^ (32 - bits) = net / 2 ^ (32 - bits)

/-- Loopback, unspecified, private or link-local. -/
def ipv4Internal (address : Nat) : Bool :=
  inBlock address 0x7f000000 8 || address = 0 || inBlock address 0x0a000000 8 ||
    inBlock address 0xac100000 12 || inBlock address 0xc0a80000 16 ||
    inBlock address 0xa9fe0000 16

/-- `fc00::/7`. -/
def uniqueLocal (groups : List Nat) : Bool :=
  groups.headD 0 / 2 ^ 9 = 0xfc00 / 2 ^ 9

/-- `fe80::/10`. -/
def linkLocal (groups : List Nat) : Bool :=
  groups.headD 0 / 2 ^ 6 = 0xfe80 / 2 ^ 6

/-- The IPv4 address behind `::ffff:0:0/96`. -/
def mappedOf (groups : List Nat) : Option Nat :=
  if groups.take 6 = [0, 0, 0, 0, 0, 0xffff] then
    some (65536 * groups.getD 6 0 + groups.getD 7 0)
  else none

/-- Loopback, unspecified or an internal IPv4 address that is mapped. -/
def ipv6Embedded (groups : List Nat) : Bool :=
  groups = [0, 0, 0, 0, 0, 0, 0, 1] || groups = [0, 0, 0, 0, 0, 0, 0, 0] ||
    (mappedOf groups).any ipv4Internal

/-- The address is of the host itself, of a private network or of the link. -/
def ipv6Internal (groups : List Nat) : Bool :=
  ipv6Embedded groups || uniqueLocal groups || linkLocal groups

/-- ASCII letters in lower case. -/
def lower (t : List Char) : List Char :=
  t.map Char.toLower

/-- `localhost` or a name under it, with or without the dot of the root. -/
def isLocalName (name : List Char) : Bool :=
  let name := if name.getLast? = some '.' then name.dropLast else name
  name = "localhost".toList || ".localhost".toList.isSuffixOf name

/-! ## Texts of IPv6 addresses -/

section

variable {t piece left right : List Char} {c : Char} {g n x base : Nat} {gs : List Nat}

theorem hexValue_lt (value : hexValue c = some x) : x < 16 := by
  unfold hexValue at value
  split at value
  next digit =>
    cases value
    have : c.toNat ≤ 57 := digit.2
    omega
  split at value
  next upper =>
    cases value
    have : c.toNat ≤ 70 := upper.2
    omega
  split at value
  next small =>
    cases value
    have : c.toNat ≤ 102 := small.2
    omega
  · cases value

/-- The digit in lower case. -/
def lowerDigit (x : Nat) : Char :=
  Char.ofNat (if x < 10 then 48 + x else 87 + x)

theorem toLower_of_hexValue (value : hexValue c = some x) : c.toLower = lowerDigit x := by
  have all : ∀ code : Fin 103, (hexValue (Char.ofNat code)).all
      (fun x => (Char.ofNat code).toLower = lowerDigit x) = true := by decide
  have small : c.toNat < 103 := by
    unfold hexValue at value
    split at value
    next digit => exact lt_of_le_of_lt digit.2 (by decide)
    split at value
    next upper => exact lt_of_le_of_lt upper.2 (by decide)
    split at value
    next small => exact lt_of_le_of_lt small.2 (by decide)
    · cases value
  have this := all ⟨c.toNat, small⟩
  rw [Char.ofNat_toNat, value] at this
  exact of_decide_eq_true this

theorem foldlM_appendDigit {m : Nat}
    (read : (c :: piece).foldlM (appendDigit base) m = some n) :
    ∃ d, hexValue c = some d ∧ d < base ∧
      piece.foldlM (appendDigit base) (base * m + d) = some n := by
  rw [List.foldlM_cons, appendDigit] at read
  cases value : hexValue c with
  | none =>
      rw [value] at read
      cases read
  | some d =>
      rw [value, Option.filter_some] at read
      split at read
      next small => exact ⟨d, rfl, of_decide_eq_true small, read⟩
      · cases read

theorem numberIn_cons (read : numberIn base (c :: piece) = some n) :
    ∃ d, hexValue c = some d ∧ d < base := by
  obtain ⟨d, value, small, _⟩ := foldlM_appendDigit read
  exact ⟨d, value, small⟩

/-- One to four digits and their number. -/
inductive Hextet : List Char → Nat → Prop
  | one {a : Char} {x : Nat} (ha : hexValue a = some x) : Hextet [a] x
  | two {a b : Char} {x y : Nat} (ha : hexValue a = some x) (hb : hexValue b = some y) :
    Hextet [a, b] (16 * x + y)
  | three {a b c : Char} {x y z : Nat} (ha : hexValue a = some x) (hb : hexValue b = some y)
    (hc : hexValue c = some z) : Hextet [a, b, c] (16 * (16 * x + y) + z)
  | four {a b c d : Char} {x y z w : Nat} (ha : hexValue a = some x) (hb : hexValue b = some y)
    (hc : hexValue c = some z) (hd : hexValue d = some w) :
    Hextet [a, b, c, d] (16 * (16 * (16 * x + y) + z) + w)

theorem Hextet.head {rest : List Char} (read : Hextet (c :: rest) g) :
    ∃ x, hexValue c = some x := by
  cases read with
  | one ha | two ha | three ha | four ha => exact ⟨_, ha⟩

theorem Hextet.of_read (read : hextet piece = some g) : Hextet piece g := by
  unfold hextet at read
  split at read
  next size =>
    rcases piece with _ | ⟨a, piece⟩
    · exact absurd size.1 (by decide)
    obtain ⟨x, ha, _, read⟩ := foldlM_appendDigit read
    rw [Nat.mul_zero, Nat.zero_add] at read
    rcases piece with _ | ⟨b, piece⟩
    · cases read
      exact .one ha
    obtain ⟨y, hb, _, read⟩ := foldlM_appendDigit read
    rcases piece with _ | ⟨c, piece⟩
    · cases read
      exact .two ha hb
    obtain ⟨z, hc, _, read⟩ := foldlM_appendDigit read
    rcases piece with _ | ⟨d, piece⟩
    · cases read
      exact .three ha hb hc
    obtain ⟨w, hd, _, read⟩ := foldlM_appendDigit read
    rcases piece with _ | ⟨e, piece⟩
    · cases read
      exact .four ha hb hc hd
    · have := size.2
      simp only [List.length_cons] at this
      omega
  · cases read

/-- A group of `fc00::/7` is written with `fc` or `fd` in front. -/
theorem Hextet.uniqueLocal (read : Hextet piece g) (range : g / 2 ^ 9 = 0xfc00 / 2 ^ 9) :
    ∃ a b rest, piece = a :: b :: rest ∧ a.toLower = 'f' ∧ (b.toLower = 'c' ∨ b.toLower = 'd') := by
  cases read with
  | @one a x ha =>
      have := hexValue_lt ha
      omega
  | @two a b x y ha hb =>
      have := hexValue_lt ha
      have := hexValue_lt hb
      omega
  | @three a b c x y z ha hb hc =>
      have := hexValue_lt ha
      have := hexValue_lt hb
      have := hexValue_lt hc
      omega
  | @four a b c d x y z w ha hb hc hd =>
      have := hexValue_lt ha
      have := hexValue_lt hb
      have := hexValue_lt hc
      have := hexValue_lt hd
      have first : x = 15 := by omega
      have second : y = 12 ∨ y = 13 := by omega
      refine ⟨a, b, [c, d], rfl, ?_, ?_⟩
      · rw [toLower_of_hexValue ha, first]
        decide
      · rw [toLower_of_hexValue hb]
        exact second.imp (fun eq => by rw [eq]; decide) (fun eq => by rw [eq]; decide)

/-- A group of `fe80::/10` is written with `fe8`, `fe9`, `fea` or `feb` in front. -/
theorem Hextet.linkLocal (read : Hextet piece g) (range : g / 2 ^ 6 = 0xfe80 / 2 ^ 6) :
    ∃ a b c rest, piece = a :: b :: c :: rest ∧ a.toLower = 'f' ∧ b.toLower = 'e' ∧
      c.toLower ∈ ['8', '9', 'a', 'b'] := by
  cases read with
  | @one a x ha =>
      have := hexValue_lt ha
      omega
  | @two a b x y ha hb =>
      have := hexValue_lt ha
      have := hexValue_lt hb
      omega
  | @three a b c x y z ha hb hc =>
      have := hexValue_lt ha
      have := hexValue_lt hb
      have := hexValue_lt hc
      omega
  | @four a b c d x y z w ha hb hc hd =>
      have := hexValue_lt ha
      have := hexValue_lt hb
      have := hexValue_lt hc
      have := hexValue_lt hd
      have first : x = 15 := by omega
      have second : y = 14 := by omega
      have third : z = 8 ∨ z = 9 ∨ z = 10 ∨ z = 11 := by omega
      refine ⟨a, b, c, [d], rfl, ?_, ?_, ?_⟩
      · rw [toLower_of_hexValue ha, first]
        decide
      · rw [toLower_of_hexValue hb, second]
        decide
      · rw [toLower_of_hexValue hc]
        rcases third with rfl | rfl | rfl | rfl <;> decide

theorem toLower_eq_f_iff (value : hexValue c = some x) : c.toLower = 'f' ↔ x = 15 := by
  have all : ∀ y : Fin 16, lowerDigit y = 'f' ↔ y.val = 15 := by decide
  rw [toLower_of_hexValue value]
  exact all ⟨x, hexValue_lt value⟩

/-- A group that begins with `f` is not small, and `ffff` goes on with `f`. -/
theorem Hextet.of_f {a : Char} {rest : List Char} (read : Hextet (a :: rest) g)
    (first : a.toLower = 'f') :
    15 ≤ g ∧ ((∀ b more, rest = b :: more → b.toLower ≠ 'f') → g ≠ 0xffff) := by
  cases read with
  | @one _ x ha =>
      have := (toLower_eq_f_iff ha).mp first
      exact ⟨by omega, fun _ => by omega⟩
  | @two _ b x y ha hb =>
      have := (toLower_eq_f_iff ha).mp first
      have := hexValue_lt hb
      exact ⟨by omega, fun _ => by omega⟩
  | @three _ b c x y z ha hb hc =>
      have := (toLower_eq_f_iff ha).mp first
      have := hexValue_lt hb
      have := hexValue_lt hc
      exact ⟨by omega, fun _ => by omega⟩
  | @four _ b c d x y z w ha hb hc hd =>
      have := (toLower_eq_f_iff ha).mp first
      have := hexValue_lt hb
      have := hexValue_lt hc
      have := hexValue_lt hd
      refine ⟨by omega, fun other => ?_⟩
      have second : y ≠ 15 := fun eq => other b [c, d] rfl ((toLower_eq_f_iff hb).mpr eq)
      omega

/-! ## Pieces -/

theorem splitChars_ne_nil (sep : Char) (s : List Char) : splitChars sep s ≠ [] := by
  rw [splitChars_eq_splitOn]
  exact List.splitOn_ne_nil sep s

/-- The first piece ends at a separator or at the end. -/
theorem splitChars_head {sep : Char} {p : List Char} {ps : List (List Char)}
    (cut : splitChars sep t = p :: ps) :
    (t = p ∧ ps = []) ∨ ∃ rest, t = p ++ sep :: rest ∧ ps = splitChars sep rest := by
  by_cases there : sep ∈ t
  · obtain ⟨before, after, rfl, clean⟩ := List.eq_append_cons_of_mem there
    rw [splitChars_append_sep, splitChars_of_notMem clean] at cut
    obtain ⟨rfl, rfl⟩ := List.cons.inj cut
    exact .inr ⟨after, rfl, rfl⟩
  · rw [splitChars_of_notMem there] at cut
    obtain ⟨rfl, rfl⟩ := List.cons.inj cut
    exact .inl ⟨rfl, rfl⟩

theorem cutDouble_eq (cut : cutDouble t = some (left, right)) :
    t = left ++ ':' :: ':' :: right := by
  fun_induction cutDouble t generalizing left with
  | case1 rest =>
      cases cut
      rfl
  | case2 c rest _ ih =>
      obtain ⟨⟨before, after⟩, inner, eq⟩ := Option.map_eq_some_iff.mp cut
      cases eq
      rw [ih inner]
      rfl
  | case3 => cases cut

theorem length_quadGroups (read : quadGroups piece = some gs) : gs.length = 2 := by
  unfold quadGroups at read
  split at read
  · cases read
    rfl
  · cases read

/-- The first group is a piece of its own. -/
theorem groupsOf_cons {p : List Char} {ps : List (List Char)}
    (read : groupsOf (p :: ps) = some gs) :
    (∃ g rest, Hextet p g ∧ gs = g :: rest ∧ (ps = [] → rest = [])) ∨
      (ps = [] ∧ quadGroups p = some gs) := by
  cases ps with
  | nil =>
      rw [groupsOf] at read
      cases group : hextet p with
      | none =>
          rw [group] at read
          exact .inr ⟨rfl, read⟩
      | some g =>
          rw [group] at read
          cases read
          exact .inl ⟨g, [], .of_read group, rfl, fun _ => rfl⟩
  | cons q ps =>
      obtain ⟨g, group, read⟩ := Option.bind_eq_some_iff.mp read
      obtain ⟨rest, _, rfl⟩ := Option.map_eq_some_iff.mp read
      exact .inl ⟨g, rest, .of_read group, rfl, fun eq => absurd eq (List.cons_ne_nil _ _)⟩

/-- The first group stands before a colon, or the address begins with `::`. -/
theorem ipv6Of_cases (read : ipv6Of t = some gs) :
    (∃ p rest g more, t = p ++ ':' :: rest ∧ Hextet p g ∧ gs = g :: more) ∨
      ∃ right after, t = ':' :: ':' :: right ∧ groupsOf (piecesOf right) = some after ∧
        after.length < 8 ∧ gs = List.replicate (8 - after.length) 0 ++ after := by
  unfold ipv6Of at read
  split at read
  next left right cut =>
    obtain ⟨before, groups, read⟩ := Option.bind_eq_some_iff.mp read
    obtain ⟨after, groups', read⟩ := Option.bind_eq_some_iff.mp read
    have eq := cutDouble_eq cut
    split at read
    next few =>
      by_cases empty : left = []
      · subst empty
        cases groups
        rw [List.length_nil, Nat.zero_add] at few read
        cases read
        exact .inr ⟨right, after, eq, groups', few, rfl⟩
      · obtain ⟨p, ps, pieces⟩ := List.exists_cons_of_ne_nil (splitChars_ne_nil ':' left)
        rw [piecesOf, if_neg empty, pieces] at groups
        obtain ⟨g, group, groups⟩ := Option.bind_eq_some_iff.mp groups
        obtain ⟨more, _, rfl⟩ := Option.map_eq_some_iff.mp groups
        cases read
        refine .inl ?_
        rcases splitChars_head pieces with ⟨rfl, _⟩ | ⟨rest, rfl, _⟩
        · exact ⟨left, ':' :: right, g, _, eq, .of_read group, rfl⟩
        · refine ⟨p, rest ++ ':' :: ':' :: right, g, _, ?_, .of_read group, rfl⟩
          rw [eq, List.append_assoc, List.cons_append]
    · cases read
  next =>
    obtain ⟨groups, eight⟩ := Option.filter_eq_some_iff.mp read
    have eight : gs.length = 8 := of_decide_eq_true eight
    by_cases empty : t = []
    · rw [piecesOf, if_pos empty] at groups
      cases groups
      cases eight
    obtain ⟨p, ps, pieces⟩ := List.exists_cons_of_ne_nil (splitChars_ne_nil ':' t)
    rw [piecesOf, if_neg empty, pieces] at groups
    refine .inl ?_
    rcases groupsOf_cons groups with ⟨g, rest, group, rfl, alone⟩ | ⟨_, quad⟩
    · rcases splitChars_head pieces with ⟨_, rfl⟩ | ⟨after, eq, _⟩
      · rw [alone rfl] at eight
        cases eight
      · exact ⟨p, after, g, rest, eq, group, rfl⟩
    · rw [length_quadGroups quad] at eight
      cases eight

/-! ## Texts and ranges -/

/-- The first group that is not zero, of the addresses that are not told by their first group. -/
theorem find?_of_embedded (embedded : ipv6Embedded gs = true) :
    gs.find? (· ≠ 0) = none ∨ gs.find? (· ≠ 0) = some 1 ∨ gs.find? (· ≠ 0) = some 0xffff := by
  simp only [ipv6Embedded, Bool.or_eq_true, decide_eq_true_eq] at embedded
  rcases embedded with (rfl | rfl) | mapped
  · exact .inr (.inl rfl)
  · exact .inl rfl
  · refine .inr (.inr ?_)
    unfold mappedOf at mapped
    split at mapped
    next begin =>
      rw [← List.take_append_drop 6 gs, begin]
      rfl
    · cases mapped

theorem embedded_of_first (large : 15 ≤ g) (other : g ≠ 0xffff) (k : Nat) (more : List Nat) :
    ipv6Embedded (List.replicate k 0 ++ g :: more) = false := by
  rw [← Bool.not_eq_true]
  intro embedded
  have found : (List.replicate k 0 ++ g :: more).find? (· ≠ 0) = some g := by
    rw [List.find?_append, List.find?_replicate]
    have some_ : g ≠ 0 := by omega
    simp [some_]
  have := find?_of_embedded embedded
  rw [found] at this
  simp only [reduceCtorEq, Option.some.injEq, false_or] at this
  omega

theorem quadGroups_f {a : Char} {rest : List Char} (first : a.toLower = 'f') :
    quadGroups (a :: rest) = none := by
  obtain ⟨q, qs, pieces⟩ := List.exists_cons_of_ne_nil (splitChars_ne_nil '.' (a :: rest))
  have octet : decOctet q = none := by
    have head : ∃ q', q = a :: q' := by
      rcases q with _ | ⟨c, q'⟩
      · rcases splitChars_head pieces with ⟨eq, _⟩ | ⟨_, eq, _⟩
        · cases eq
        · rw [(List.cons.inj eq).1] at first
          exact absurd first (by decide)
      · rcases splitChars_head pieces with ⟨eq, _⟩ | ⟨_, eq, _⟩
        · exact ⟨q', by rw [(List.cons.inj eq).1]⟩
        · exact ⟨q', by rw [(List.cons.inj eq).1]⟩
    obtain ⟨q', rfl⟩ := head
    unfold decOctet
    split
    · cases read : numberIn 10 (a :: q') with
      | none => rfl
      | some n =>
          obtain ⟨d, value, small⟩ := numberIn_cons read
          have := (toLower_eq_f_iff value).mp first
          omega
    · rfl
  rw [quadGroups, pieces, List.mapM_cons, octet]
  rfl

/-- The first group of a text that goes on with a letter other than `f` behind an `f`. -/
theorem groupsOf_f {a b : Char} {rest : List Char}
    (read : groupsOf (piecesOf (a :: b :: rest)) = some gs) (first : a.toLower = 'f')
    (second : b.toLower ≠ 'f') : ∃ g more, gs = g :: more ∧ 15 ≤ g ∧ g ≠ 0xffff := by
  rw [piecesOf, if_neg (List.cons_ne_nil a _)] at read
  obtain ⟨p, ps, pieces⟩ := List.exists_cons_of_ne_nil (splitChars_ne_nil ':' (a :: b :: rest))
  rw [pieces] at read
  have whole : ∃ tail, a :: b :: rest = p ++ tail := by
    rcases splitChars_head pieces with ⟨eq, _⟩ | ⟨tail, eq, _⟩
    · exact ⟨[], by rw [eq, List.append_nil]⟩
    · exact ⟨':' :: tail, eq⟩
  obtain ⟨tail, eq⟩ := whole
  rcases p with _ | ⟨c, p⟩
  · rcases splitChars_head pieces with ⟨eq, _⟩ | ⟨_, eq, _⟩
    · cases eq
    · rw [(List.cons.inj eq).1] at first
      exact absurd first (by decide)
  obtain ⟨rfl, after⟩ := List.cons.inj eq
  rcases groupsOf_cons read with ⟨g, more, group, rfl, _⟩ | ⟨_, quad⟩
  · obtain ⟨large, other⟩ := group.of_f first
    refine ⟨g, more, rfl, large, other ?_⟩
    rintro d _ rfl
    have same : b = d := (List.cons.inj after).1
    exact same ▸ second
  · rw [quadGroups_f first] at quad
    cases quad

/-- An address that is not told by its first group is not written with such a text in front,
or behind `::`. -/
theorem embedded_of_f {a b : Char} {rest : List Char} (read : ipv6Of t = some gs)
    (front : t = a :: b :: rest ∨ t = ':' :: ':' :: a :: b :: rest) (first : a.toLower = 'f')
    (second : b.toLower ≠ 'f') : ipv6Embedded gs = false := by
  have colon : a ≠ ':' := by
    rintro rfl
    exact absurd first (by decide)
  rcases ipv6Of_cases read with ⟨p, tail, g, more, eq, group, rfl⟩ |
    ⟨right, after, eq, groups, few, rfl⟩
  · rcases p with _ | ⟨c, p⟩
    · cases group
    have digit : c ≠ ':' := by
      rintro rfl
      obtain ⟨x, value⟩ := group.head
      have none : hexValue ':' = none := by decide
      rw [none] at value
      cases value
    rcases front with front | front
    · rw [front] at eq
      obtain ⟨rfl, after⟩ := List.cons.inj eq
      obtain ⟨large, other⟩ := group.of_f first
      refine embedded_of_first large (other ?_) 0 more
      rintro d _ rfl
      have same : b = d := (List.cons.inj after).1
      exact same ▸ second
    · rw [front] at eq
      exact absurd (List.cons.inj eq).1.symm digit
  · have same : right = a :: b :: rest := by
      rcases front with front | front
      · rw [front] at eq
        exact absurd (List.cons.inj eq).1 colon
      · rw [front] at eq
        exact (List.cons.inj (List.cons.inj eq).2).2.symm
    subst same
    have some_ : a :: b :: rest ≠ [] := List.cons_ne_nil a _
    obtain ⟨g, more, rfl, large, other⟩ := groupsOf_f groups first second
    exact embedded_of_first large other _ more

/-- A unique-local or link-local address is told by its text. -/
theorem lower_of_local (read : ipv6Of t = some gs)
    (local_ : uniqueLocal gs = true ∨ linkLocal gs = true) :
    ∃ a b rest, t = a :: b :: rest ∧ a.toLower = 'f' ∧ (b.toLower = 'c' ∨ b.toLower = 'd' ∨
      (b.toLower = 'e' ∧ ∃ c more, rest = c :: more ∧ c.toLower ∈ ['8', '9', 'a', 'b'])) := by
  rcases ipv6Of_cases read with ⟨p, tail, g, more, rfl, group, rfl⟩ |
    ⟨right, after, eq, groups, few, rfl⟩
  · rcases local_ with range | range
    · obtain ⟨a, b, rest, rfl, first, second⟩ := group.uniqueLocal (of_decide_eq_true range)
      exact ⟨a, b, rest ++ ':' :: tail, rfl, first, second.imp_right .inl⟩
    · obtain ⟨a, b, c, rest, rfl, first, second, third⟩ :=
        group.linkLocal (of_decide_eq_true range)
      exact ⟨a, b, c :: (rest ++ ':' :: tail), rfl, first,
        .inr (.inr ⟨second, c, rest ++ ':' :: tail, rfl, third⟩)⟩
  · obtain ⟨k, eq⟩ : ∃ k, 8 - after.length = k + 1 := ⟨7 - after.length, by omega⟩
    rw [eq, List.replicate_succ, List.cons_append] at local_
    rcases local_ with range | range
    · have range := of_decide_eq_true range
      rw [List.headD_cons] at range
      exact absurd range (by decide)
    · have range := of_decide_eq_true range
      rw [List.headD_cons] at range
      exact absurd range (by decide)

/-- Every text of an address has a colon. -/
theorem colon_mem (read : ipv6Of t = some gs) : ':' ∈ t := by
  rcases ipv6Of_cases read with ⟨p, tail, _, _, rfl, _⟩ | ⟨right, _, rfl, _⟩
  · exact List.mem_append_right p List.mem_cons_self
  · exact List.mem_cons_self

end

/-! ## Hosts -/

/-- What a host text names. -/
inductive Host where
  | ipv4 (address : Nat)
  | ipv6 (groups : List Nat)
  | name (t : List Char)
deriving DecidableEq, Repr

/-- The host is not one of the public network. -/
def Host.internal : Host → Bool
  | ipv4 address => ipv4Internal address
  | ipv6 groups => ipv6Internal groups
  | name t => isLocalName t

/-- The host as it is written: a literal in brackets, or what comes before the port. -/
inductive HostText where
  | literal (t : List Char)
  | plain (t : List Char)
deriving DecidableEq, Repr

/-- The text without its brackets. -/
def HostText.text : HostText → List Char
  | literal t | plain t => t

/-- The host that a text names; a text that is no address is a name. -/
def HostText.read : HostText → Option Host
  | literal t => (ipv6Of t).map .ipv6
  | plain t => some (((ipv4Of t).map Host.ipv4).getD (.name (lower t)))

/-- What follows the last `@`. -/
def afterUserinfo (authority : List Char) : List Char :=
  (authority.reverse.takeWhile (· ≠ '@')).reverse

/-- The host of an authority, without user information and port. -/
def hostText (authority : List Char) : Option HostText :=
  match afterUserinfo authority with
  | '[' :: rest => (cutAt ']' rest).2.map fun _ => .literal (cutAt ']' rest).1
  | host => some (.plain (cutAt ':' host).1)

/-- The host of a URL. -/
def urlHost (url : List Char) : Option Host :=
  (Address.parse url).bind fun address => (hostText address.authority).bind HostText.read

end Fulla
