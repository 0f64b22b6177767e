import Fulla.Model.EmailAddresses
import Fulla.Model.HostLiterals

/-!
# Back-channel logout targets

`RuleSet::validateBackchannelLogoutUri` in `RuleSet.cc`: the URI that the server posts logout
tokens to.  Unless the deployment opts in, a host that is a private literal is refused; it is
recognised by its text.
-/

namespace Fulla

namespace RuleSet

/-- `std::stoul` of decimal digits. -/
def stoul (token : List Char) : Nat :=
  token.foldl (fun n c => 10 * n + (c.toNat - 48)) 0

/-- The ranges `0/8`, `10/8`, `127/8`, `172.16/12`, `192.168/16` and `169.254/16`. -/
def classify : List Nat → Bool
  | [o0, o1, _, _] =>
    if o0 = 0 || o0 = 10 || o0 = 127 then true
    else if o0 = 172 && 16 ≤ o1 && o1 ≤ 31 then true
    else if o0 = 192 && o1 = 168 then true
    else if o0 = 169 && o1 = 254 then true
    else false
  | _ => false

/-- The loop over the characters, from the octets and the token it has; none where it returns
`false`. -/
def scanOctets : List Char → List Nat → List Char → Option (List Nat × List Char)
  | [], octets, token => some (octets, token)
  | ch :: host, octets, token =>
    if ch = '.' then
      if token = [] ∨ 3 < token.length ∨ 4 ≤ octets.length then none
      else scanOctets host (octets ++ [stoul token]) []
    else if ch.isDigit then scanOctets host octets (token ++ [ch])
    else none

/-- After the loop: the token that is left is the last octet. -/
def classifyLast (octets : List Nat) (token : List Char) : Bool :=
  if token = [] ∨ 3 < token.length ∨ octets.length ≠ 3 then false
  else if (octets ++ [stoul token]).any (255 < ·) then false
  else classify (octets ++ [stoul token])

/-- `isPrivateIpv4` of `RuleSet.cc`. -/
def isPrivateIpv4 (host : List Char) : Bool :=
  match scanOctets host [] [] with
  | none => false
  | some (octets, token) => classifyLast octets token

/-- `isPrivateIpv6` of `RuleSet.cc`. -/
def isPrivateIpv6 (host : List Char) : Bool :=
  if host = "::1".toList ∨ host = "::".toList then true
  else if "::ffff:".toList.isPrefixOf host then isPrivateIpv4 (host.drop 7)
  else
    let h := lower host
    let leading := if "::".toList.isPrefixOf h then h.drop 2 else h
    ("fc".toList.isPrefixOf leading || "fd".toList.isPrefixOf leading) ||
      ("fe8".toList.isPrefixOf leading || "fe9".toList.isPrefixOf leading ||
        "fea".toList.isPrefixOf leading || "feb".toList.isPrefixOf leading)

/-- `isPrivateOrLoopbackHost` of `RuleSet.cc`. -/
def isPrivateOrLoopbackHost (host : List Char) : Bool :=
  let h := lower host
  if h = "localhost".toList ∨ h = "localhost.".toList then true
  else if ':' ∈ h then isPrivateIpv6 h
  else isPrivateIpv4 h

/-- `auth.allow_http_redirect_uri` and `auth.allow_private_backchannel_logout_uri`. -/
structure LogoutUriPolicy where
  allowHttp : Bool := false
  allowPrivate : Bool := false
deriving DecidableEq, Repr

/-- What follows the first `needle`. -/
def afterFirst (needle : List Char) : List Char → List Char
  | [] => []
  | c :: s =>
    if needle.isPrefixOf (c :: s) then (c :: s).drop needle.length else afterFirst needle s

/-- The host behind brackets or before a colon; none for a bracket that is not closed. -/
def bracketedHost : List Char → Option (List Char)
  | '[' :: authority => (cutAt ']' authority).2.map fun _ => (cutAt ']' authority).1
  | authority => some (cutAt ':' authority).1

/-- What stands between the scheme and the path. -/
def authorityOf (uri : List Char) : List Char :=
  (afterFirst "://".toList uri).takeWhile fun c => c ≠ '/' && c ≠ '?'

/-- `RuleSet::validateBackchannelLogoutUri`. -/
def validateBackchannelLogoutUri (policy : LogoutUriPolicy) (uri : String) : Option String :=
  if uri = "" then none
  else if 512 < uri.utf8ByteSize then some "backchannel_logout_uri exceeds 512 characters"
  else
    let https := (afterText "https://" uri).isSome
    let http := (afterText "http://" uri).isSome
    if !https && !http then some "backchannel_logout_uri must use https"
    else if http && !policy.allowHttp then some "backchannel_logout_uri must use https"
    else if '#' ∈ uri.toList then some "backchannel_logout_uri must not contain a fragment"
    else
      let authority := authorityOf uri.toList
      if '@' ∈ authority then some "backchannel_logout_uri must not contain userinfo"
      else
        match bracketedHost authority with
        | none => some "backchannel_logout_uri has a malformed IPv6 host"
        | some host =>
          if host = [] then some "backchannel_logout_uri must include a host"
          else if isPrivateOrLoopbackHost host && !policy.allowPrivate then
            some ("backchannel_logout_uri must not target loopback/private/link-local " ++
              "addresses (set auth.allow_private_backchannel_logout_uri to permit " ++
              "them for local testing)")
          else none

/-! ## Dotted quads -/

/-- One to three digits, as the octets are read. -/
structure IsToken (token : List Char) : Prop where
  some_ : token ≠ []
  short : token.length ≤ 3
  digits : ∀ c ∈ token, c.isDigit = true

/-- Four decimals of one to three digits, none over 255, that begin with 0 or spell an internal
address. -/
def SpelledOut (t : List Char) : Prop :=
  ∃ a b c d, splitChars '.' t = [a, b, c, d] ∧
    (∀ token ∈ [a, b, c, d], IsToken token ∧ stoul token ≤ 255) ∧
    (stoul a = 0 ∨
      ipv4Internal (2 ^ 24 * stoul a + 2 ^ 16 * stoul b + 2 ^ 8 * stoul c + stoul d) = true)

section

variable {t token tok : List Char} {octets os : List Nat} {a b c d : Nat}

/-- The networks of an address, from its octets. -/
theorem networks_of_octets (hb : b ≤ 255) (hc : c ≤ 255) (hd : d ≤ 255) {address : Nat}
    (octets : address = 2 ^ 24 * a + 2 ^ 16 * b + 2 ^ 8 * c + d) :
    address / 2 ^ 24 = a ∧ address / 2 ^ 20 = 16 * a + b / 16 ∧
      address / 2 ^ 16 = 256 * a + b := by
  refine ⟨?_, ?_, ?_⟩ <;> omega

/-- **The table of private ranges**, against the ranges themselves. -/
theorem classify_iff (hb : b ≤ 255) (hc : c ≤ 255) (hd : d ≤ 255) :
    classify [a, b, c, d] = true ↔
      a = 0 ∨ ipv4Internal (2 ^ 24 * a + 2 ^ 16 * b + 2 ^ 8 * c + d) = true := by
  obtain ⟨address, octets⟩ : ∃ n, n = 2 ^ 24 * a + 2 ^ 16 * b + 2 ^ 8 * c + d := ⟨_, rfl⟩
  obtain ⟨by8, by12, by16⟩ := networks_of_octets hb hc hd octets
  have zero : address = 0 → a = 0 := fun zero => by omega
  rw [← octets]
  simp only [classify, ipv4Internal, inBlock, Bool.or_eq_true, Bool.and_eq_true,
    decide_eq_true_eq, Bool.if_true_left, Bool.if_false_right, Bool.and_true,
    Nat.reduceSub, by8, by12, by16]
  clear octets by8 by12 by16 hc hd
  omega

/-- Only the separators are lost. -/
theorem mem_splitChars {sep ch : Char} {s : List Char} (mem : ch ∈ s) (ne : ch ≠ sep) :
    ∃ piece ∈ splitChars sep s, ch ∈ piece := by
  by_cases there : sep ∈ s
  · obtain ⟨before, after, rfl, clean⟩ := List.eq_append_cons_of_mem there
    rw [splitChars_append_sep, splitChars_of_notMem clean]
    rw [List.mem_append, List.mem_cons] at mem
    rcases mem with mem | rfl | mem
    · exact ⟨before, List.mem_cons_self, mem⟩
    · exact absurd rfl ne
    · obtain ⟨piece, piece_mem, mem⟩ := mem_splitChars mem ne
      exact ⟨piece, List.mem_cons_of_mem _ piece_mem, mem⟩
  · refine ⟨s, ?_, mem⟩
    rw [splitChars_of_notMem there]
    exact List.mem_singleton_self s
termination_by s.length
decreasing_by
  subst_vars
  rw [List.length_append, List.length_cons]
  omega

theorem dot_notMem (digits : ∀ c ∈ token, c.isDigit = true) : '.' ∉ token := fun mem =>
  absurd (digits '.' mem) (by decide)

/-- What the loop has read: tokens that a dot ended, and the one it is in. -/
theorem scanOctets_eq_some_iff (digits : ∀ c ∈ token, c.isDigit = true) (few : octets.length ≤ 4) :
    scanOctets t octets token = some (os, tok) ↔
      ∃ tokens, splitChars '.' (token ++ t) = tokens ++ [tok] ∧ (∀ p ∈ tokens, IsToken p) ∧
        (∀ c ∈ tok, c.isDigit = true) ∧ os = octets ++ tokens.map stoul ∧ os.length ≤ 4 := by
  induction t generalizing octets token with
  | nil =>
      rw [scanOctets, List.append_nil, splitChars_of_notMem (dot_notMem digits)]
      constructor
      · rintro ⟨⟩
        exact ⟨[], rfl, fun _ mem => absurd mem List.not_mem_nil, digits,
          (List.append_nil _).symm, few⟩
      · rintro ⟨tokens, eq, _, _, rfl, _⟩
        obtain ⟨rfl, rfl⟩ : tokens = [] ∧ tok = token := by
          cases tokens with
          | nil => exact ⟨rfl, (List.cons.inj eq).1.symm⟩
          | cons p tokens => simp at eq
        rw [List.map_nil, List.append_nil]
  | cons ch t ih =>
      rw [scanOctets]
      by_cases dot : ch = '.'
      · subst dot
        rw [if_pos rfl, splitChars_append_sep, splitChars_of_notMem (dot_notMem digits)]
        -- the dot ends a token, and another one begins
        have first {tokens : List (List Char)}
            (eq : [token] ++ splitChars '.' t = tokens ++ [tok]) :
            ∃ rest, tokens = token :: rest ∧ splitChars '.' t = rest ++ [tok] := by
          cases tokens with
          | nil => exact absurd (List.cons.inj eq).2 (splitChars_ne_nil '.' t)
          | cons p rest =>
              obtain ⟨rfl, tail⟩ := List.cons.inj eq
              exact ⟨rest, rfl, tail⟩
        split
        next bad =>
          constructor
          · intro none
            cases none
          rintro ⟨tokens, eq, all, _, rfl, few'⟩
          obtain ⟨rest, rfl, _⟩ := first eq
          have whole := all token List.mem_cons_self
          rw [List.length_append, List.length_map, List.length_cons] at few'
          rcases bad with empty | long | full
          · exact absurd empty whole.some_
          · exact absurd whole.short (Nat.not_le_of_lt long)
          · omega
        next good =>
          rw [not_or, not_or, Nat.not_lt, Nat.not_le] at good
          have few' : (octets ++ [stoul token]).length ≤ 4 := by
            rw [List.length_append]
            exact good.2.2
          rw [ih (fun _ mem => absurd mem List.not_mem_nil) few', List.nil_append]
          constructor
          · rintro ⟨rest, eq, all, last, rfl, le⟩
            refine ⟨token :: rest, ?_, ?_, last, ?_, le⟩
            · rw [eq]
              rfl
            · intro p mem
              rcases List.mem_cons.mp mem with rfl | mem
              · exact ⟨good.1, good.2.1, digits⟩
              · exact all p mem
            · rw [List.append_assoc]
              rfl
          · rintro ⟨tokens, eq, all, last, rfl, le⟩
            obtain ⟨rest, rfl, tail⟩ := first eq
            refine ⟨rest, tail, fun p mem => all p (List.mem_cons_of_mem _ mem), last, ?_, le⟩
            rw [List.append_assoc]
            rfl
      by_cases digit : ch.isDigit = true
      · rw [if_neg dot, if_pos digit, ih ?_ few, List.append_assoc, List.singleton_append]
        intro c mem
        rcases List.mem_append.mp mem with mem | mem
        · exact digits c mem
        · rw [List.mem_singleton.mp mem]
          exact digit
      · rw [if_neg dot, if_neg digit]
        constructor
        · intro none
          cases none
        rintro ⟨tokens, eq, all, last, _⟩
        obtain ⟨piece, mem, there⟩ :=
          mem_splitChars (List.mem_append_right token (@List.mem_cons_self _ ch t)) dot
        rw [eq] at mem
        rcases List.mem_append.mp mem with mem | mem
        · exact absurd ((all piece mem).digits ch there) digit
        · rw [List.mem_singleton.mp mem] at there
          exact absurd (last ch there) digit

/-- A text is taken for a private address exactly when it spells one out. -/
theorem isPrivateIpv4_iff : isPrivateIpv4 t = true ↔ SpelledOut t := by
  have scan (os : List Nat) (tok : List Char) := @scanOctets_eq_some_iff t [] tok [] os
    (fun _ mem => absurd mem List.not_mem_nil) (Nat.zero_le 4)
  constructor
  · intro private_
    unfold isPrivateIpv4 at private_
    split at private_
    · cases private_
    next octets token eq =>
    obtain ⟨tokens, cut, all, last, rfl, _⟩ := (scan octets token).mp eq
    unfold classifyLast at private_
    split at private_
    · cases private_
    next whole =>
    rw [not_or, not_or, Nat.not_lt, not_ne_iff, List.nil_append, List.length_map] at whole
    obtain ⟨a, b, c, rfl⟩ := List.length_eq_three.mp whole.2.2
    split at private_
    · cases private_
    next bytes =>
    simp only [List.map_cons, List.map_nil, List.cons_append, List.nil_append, List.any_cons,
      List.any_nil, Bool.or_false, Bool.or_eq_true, decide_eq_true_eq, not_or, Nat.not_lt] at bytes
    obtain ⟨ha, hb, hc, hd⟩ := bytes
    refine ⟨a, b, c, token, cut, ?_, (classify_iff hb hc hd).mp private_⟩
    intro p mem
    simp only [List.mem_cons, List.not_mem_nil, or_false] at mem
    rcases mem with rfl | rfl | rfl | rfl
    · exact ⟨all p (by simp), ha⟩
    · exact ⟨all p (by simp), hb⟩
    · exact ⟨all p (by simp), hc⟩
    · exact ⟨⟨whole.1, whole.2.1, last⟩, hd⟩
  · rintro ⟨a, b, c, d, cut, all, internal⟩
    have ha := all a (by simp)
    have hb := all b (by simp)
    have hc := all c (by simp)
    have hd := all d (by simp)
    have read : scanOctets t [] [] = some ([stoul a, stoul b, stoul c], d) := by
      refine (scan _ _).mpr ⟨[a, b, c], cut, fun p mem => ?_, hd.1.digits, rfl, ?_⟩
      swap
      · exact Nat.le_succ 3
      exact (all p (by simp at mem ⊢; tauto)).1
    have whole : ¬ (d = [] ∨ 3 < d.length ∨ [stoul a, stoul b, stoul c].length ≠ 3) := by
      rw [not_or, not_or, Nat.not_lt, not_ne_iff]
      exact ⟨hd.1.some_, hd.1.short, rfl⟩
    have bytes : ([stoul a, stoul b, stoul c] ++ [stoul d]).any (255 < ·) = false := by
      simp [ha.2, hb.2, hc.2, hd.2]
    have eq : isPrivateIpv4 t = classify ([stoul a, stoul b, stoul c] ++ [stoul d]) := by
      rw [isPrivateIpv4, read]
      change classifyLast _ d = _
      rw [classifyLast, if_neg whole, bytes]
      rfl
    rw [eq]
    exact (classify_iff hb.2 hc.2 hd.2).mpr internal

/-! ## Texts of private addresses -/

variable {gs : List Nat}

/-- How an IPv6 address that is not told by its first group is recognised. -/
def IsKnown (t : List Char) : Prop :=
  lower t = "::1".toList ∨ lower t = "::".toList ∨
    ∃ quad, lower t = "::ffff:".toList ++ quad ∧ SpelledOut quad

theorem lower_lower (t : List Char) : lower (lower t) = lower t := by
  rw [lower, lower, List.map_map]
  refine List.map_congr_left fun c _ => ?_
  exact EmailAddress.toLower_of_not_upper (EmailAddress.isUpper_toLower c)

theorem toLower_eq_colon {c : Char} (colon : c.toLower = ':') : c = ':' := by
  cases upper : c.isUpper with
  | true =>
      have all : ∀ k : Fin 128, (Char.ofNat k).isUpper = true → (Char.ofNat k).toLower ≠ ':' := by
        decide
      have ascii : c.toNat < 128 := Nat.lt_of_le_of_lt (of_decide_eq_true upper).2 (by decide)
      have other := all ⟨c.toNat, ascii⟩
      rw [Char.ofNat_toNat] at other
      exact absurd colon (other upper)
  | false => rw [← colon, EmailAddress.toLower_of_not_upper upper]

/-- `leading` and the texts it is compared with. -/
def leadingOf (h : List Char) : List Char :=
  if "::".toList.isPrefixOf h then h.drop 2 else h

theorem beginsLocal_iff (h : List Char) :
    ("fc".toList.isPrefixOf h || "fd".toList.isPrefixOf h ||
      ("fe8".toList.isPrefixOf h || "fe9".toList.isPrefixOf h ||
        "fea".toList.isPrefixOf h || "feb".toList.isPrefixOf h)) = true ↔
      ∃ b rest, h = 'f' :: b :: rest ∧ (b = 'c' ∨ b = 'd' ∨
        (b = 'e' ∧ ∃ c more, rest = c :: more ∧ c ∈ ['8', '9', 'a', 'b'])) := by
  have texts : "fc".toList = ['f', 'c'] ∧ "fd".toList = ['f', 'd'] ∧
      "fe8".toList = ['f', 'e', '8'] ∧ "fe9".toList = ['f', 'e', '9'] ∧
      "fea".toList = ['f', 'e', 'a'] ∧ "feb".toList = ['f', 'e', 'b'] := by decide
  obtain ⟨fc, fd, fe8, fe9, fea, feb⟩ := texts
  rw [fc, fd, fe8, fe9, fea, feb]
  rcases h with _ | ⟨a, _ | ⟨b, _ | ⟨c, rest⟩⟩⟩
  · simp
  · simp
  · simp only [List.isPrefixOf, Bool.and_true, Bool.and_false, Bool.or_false, Bool.or_eq_true,
      Bool.and_eq_true, beq_iff_eq, List.cons.injEq]
    grind
  · simp only [List.isPrefixOf, Bool.and_true, Bool.or_eq_true, Bool.and_eq_true, beq_iff_eq,
      List.cons.injEq, List.mem_cons, List.not_mem_nil, or_false]
    grind

theorem exists_of_leading {a b : Char} {rest : List Char}
    (front : leadingOf (lower t) = a :: b :: rest) :
    ∃ c d more, (t = c :: d :: more ∨ t = ':' :: ':' :: c :: d :: more) ∧ c.toLower = a ∧
      d.toLower = b := by
  unfold leadingOf at front
  split at front
  next double =>
    obtain ⟨tail, eq⟩ := List.isPrefixOf_iff_prefix.mp double
    have whole : lower t = ':' :: ':' :: a :: b :: rest := by
      rw [← eq] at front ⊢
      exact congrArg (fun s => ':' :: ':' :: s) front
    obtain ⟨x, t, rfl, first, whole⟩ := List.map_eq_cons_iff.mp whole
    obtain ⟨y, t, rfl, second, whole⟩ := List.map_eq_cons_iff.mp whole
    obtain ⟨c, t, rfl, third, whole⟩ := List.map_eq_cons_iff.mp whole
    obtain ⟨d, more, rfl, fourth, _⟩ := List.map_eq_cons_iff.mp whole
    rw [toLower_eq_colon first, toLower_eq_colon second]
    exact ⟨c, d, more, .inr rfl, third, fourth⟩
  · obtain ⟨c, t, rfl, first, front⟩ := List.map_eq_cons_iff.mp front
    obtain ⟨d, more, rfl, second, _⟩ := List.map_eq_cons_iff.mp front
    exact ⟨c, d, more, .inl rfl, first, second⟩

/-- What the source's classification says of an address. -/
theorem isPrivateIpv6_iff (read : ipv6Of t = some gs) (internal : ipv6Internal gs = true) :
    isPrivateIpv6 (lower t) = true ↔
      (uniqueLocal gs = true ∨ linkLocal gs = true) ∨ IsKnown t := by
  unfold isPrivateIpv6 IsKnown
  split
  next short =>
    refine ⟨fun _ => .inr ?_, fun _ => rfl⟩
    rcases short with eq | eq
    · exact .inl eq
    · exact .inr (.inl eq)
  next long =>
  rw [not_or] at long
  split
  next mapped =>
    obtain ⟨quad, eq⟩ := List.isPrefixOf_iff_prefix.mp mapped
    have rest : (lower t).drop 7 = quad := by
      rw [← eq]
      rfl
    rw [rest, isPrivateIpv4_iff]
    constructor
    · exact fun spelled => .inr (.inr (.inr ⟨quad, eq.symm, spelled⟩))
    · rintro (local_ | known | known | ⟨quad', eq', spelled⟩)
      · obtain ⟨a, b, rest, rfl, first, _⟩ := lower_of_local read local_
        have colon : ':' = a.toLower := (List.cons.inj eq).1
        rw [first] at colon
        cases colon
      · exact absurd known long.1
      · exact absurd known long.2
      · rw [← eq, List.append_cancel_left_eq] at eq'
        rw [eq']
        exact spelled
  next other =>
    have unknown : ¬ (lower t = "::1".toList ∨ lower t = "::".toList ∨
        ∃ quad, lower t = "::ffff:".toList ++ quad ∧ SpelledOut quad) := by
      rintro (known | known | ⟨quad, eq, _⟩)
      · exact long.1 known
      · exact long.2 known
      · exact other (List.isPrefixOf_iff_prefix.mpr ⟨quad, eq.symm⟩)
    rw [lower_lower, or_iff_left unknown]
    refine (beginsLocal_iff (leadingOf (lower t))).trans ⟨?_, fun local_ => ?_⟩
    · rintro ⟨b, rest, front, second⟩
      obtain ⟨c, d, more, eq, first, rfl⟩ := exists_of_leading front
      have second' : d.toLower ≠ 'f' := by
        rcases second with eq | eq | ⟨eq, _⟩ <;> rw [eq] <;> decide
      have embedded := embedded_of_f read eq first second'
      rw [ipv6Internal, embedded, Bool.false_or, Bool.or_eq_true] at internal
      exact internal
    · obtain ⟨a, b, rest, rfl, first, second⟩ := lower_of_local read local_
      have plain : leadingOf (lower (a :: b :: rest)) = a.toLower :: b.toLower :: lower rest := by
        rw [leadingOf, if_neg]
        · rfl
        · rw [lower, List.map_cons, first]
          simp
      refine ⟨b.toLower, lower rest, by rw [plain, first], ?_⟩
      rcases second with second | second | ⟨second, c, more, rfl, third⟩
      · exact .inl second
      · exact .inr (.inl second)
      · exact .inr (.inr ⟨second, c.toLower, lower more, rfl, third⟩)

/-! ## What is missed -/

/-- Hosts that stand for an internal address or a local name and are not recognised: a name or an
IPv4 address that is neither `localhost` nor four plain decimals, and an IPv6 address, not told by
its first group, that is written neither `::1` nor `::` nor as `::ffff:` and four plain decimals. -/
def Missed : HostText → Prop
  | .plain t => (∃ host, (HostText.plain t).read = some host ∧ host.internal = true) ∧
      lower t ≠ "localhost".toList ∧ lower t ≠ "localhost.".toList ∧ ¬ SpelledOut (lower t)
  | .literal t => ∃ gs, ipv6Of t = some gs ∧ ipv6Internal gs = true ∧
      ¬ (uniqueLocal gs = true ∨ linkLocal gs = true) ∧ ¬ IsKnown t

theorem colon_mem_lower_iff : ':' ∈ lower t ↔ ':' ∈ t := by
  refine ⟨fun mem => ?_, fun mem => List.mem_map.mpr ⟨':', mem, rfl⟩⟩
  obtain ⟨c, mem, colon⟩ := List.mem_map.mp mem
  exact toLower_eq_colon colon ▸ mem

theorem missed_plain_iff (clean : ':' ∉ t) : Missed (.plain t) ↔
    (∃ host, (HostText.plain t).read = some host ∧ host.internal = true) ∧
      isPrivateOrLoopbackHost t = false := by
  refine and_congr_right fun _ => ?_
  unfold isPrivateOrLoopbackHost
  dsimp only
  rw [if_neg (fun mem => clean (colon_mem_lower_iff.mp mem)), ← isPrivateIpv4_iff,
    Bool.not_eq_true]
  split
  next local_ =>
    refine ⟨fun other => ?_, fun no => by cases no⟩
    exact absurd local_ (not_or.mpr ⟨other.1, other.2.1⟩)
  next other =>
    rw [not_or] at other
    exact ⟨fun all => all.2.2, fun no => ⟨other.1, other.2, no⟩⟩

theorem missed_literal_iff : Missed (.literal t) ↔
    (∃ host, (HostText.literal t).read = some host ∧ host.internal = true) ∧
      isPrivateOrLoopbackHost t = false := by
  have recognised {gs : List Nat} (read : ipv6Of t = some gs) (internal : ipv6Internal gs = true) :
      isPrivateOrLoopbackHost t = true ↔
        (uniqueLocal gs = true ∨ linkLocal gs = true) ∨ IsKnown t := by
    have colon := colon_mem_lower_iff.mpr (colon_mem read)
    have named : ¬ (lower t = "localhost".toList ∨ lower t = "localhost.".toList) := by
      rintro (eq | eq) <;> rw [eq] at colon <;> exact absurd colon (by decide)
    unfold isPrivateOrLoopbackHost
    dsimp only
    rw [if_neg named, if_pos colon, isPrivateIpv6_iff read internal]
  constructor
  · rintro ⟨gs, read, internal, other, unknown⟩
    refine ⟨⟨.ipv6 gs, by rw [HostText.read, read]; rfl, internal⟩, ?_⟩
    rw [← Bool.not_eq_true, recognised read internal, not_or]
    exact ⟨other, unknown⟩
  · rintro ⟨⟨host, read, internal⟩, passed⟩
    obtain ⟨gs, groups, rfl⟩ := Option.map_eq_some_iff.mp read
    rw [← Bool.not_eq_true, recognised groups internal, not_or] at passed
    exact ⟨gs, groups, internal, passed⟩

/-! ## The checks before -/

/-- Short enough, of an allowed scheme, without fragment and without user. -/
structure Shaped (allowHttp : Bool) (uri : String) : Prop where
  short : uri.utf8ByteSize ≤ 512
  scheme : (afterText "https://" uri).isSome = true ∨
    (allowHttp = true ∧ (afterText "http://" uri).isSome = true)
  noFragment : '#' ∉ uri.toList
  noUser : ∀ address, Address.parse uri.toList = some address → '@' ∉ address.authority

variable {uri : String} {allowHttp : Bool} {authority : List Char} {text : HostText}

theorem takeWhile_authority (r : List Char) :
    r.takeWhile (fun c => c ≠ '/' && c ≠ '?') = (cutAt '?' r).1.takeWhile (· ≠ '/') := by
  induction r with
  | nil => rfl
  | cons c r ih =>
      by_cases query : c = '?'
      · subst query
        rw [cutAt_cons_self]
        rfl
      rw [cutAt, if_neg query]
      by_cases path : c = '/'
      · subst path
        rfl
      simp only [ne_eq, decide_not] at ih ⊢
      simp [query, path, ih]

/-- The authority is the one of the URL. -/
theorem parse_of_scheme (scheme : (afterText "https://" uri).isSome = true ∨
      (afterText "http://" uri).isSome = true) (noFragment : '#' ∉ uri.toList) :
    ∃ address, Address.parse uri.toList = some address ∧
      address.authority = authorityOf uri.toList := by
  have whole (scheme rest : List Char) (clean : ':' ∉ scheme) (noQuery : '?' ∉ scheme)
      (eq : uri.toList = scheme ++ ':' :: '/' :: '/' :: rest)
      (after : afterFirst "://".toList uri.toList = rest) :
      ∃ address, Address.parse uri.toList = some address ∧
        address.authority = authorityOf uri.toList := by
    rw [eq, List.mem_append, not_or] at noFragment
    have plain : '#' ∉ rest := fun mem =>
      noFragment.2 (List.mem_cons_of_mem _ (List.mem_cons_of_mem _ (List.mem_cons_of_mem _ mem)))
    rw [authorityOf, after, takeWhile_authority, eq, Address.parse_eq clean noQuery noFragment.1]
    refine ⟨_, rfl, ?_⟩
    rw [addressOf, cutAt_of_notMem plain]
  rcases scheme with https | http
  · obtain ⟨rest, eq⟩ := exists_of_afterText https
    refine whole "https".toList rest (by decide) (by decide) eq ?_
    rw [eq]
    rfl
  · obtain ⟨rest, eq⟩ := exists_of_afterText http
    refine whole "http".toList rest (by decide) (by decide) eq ?_
    rw [eq]
    rfl

/-- Without user information the host is cut as in the source. -/
theorem hostText_of_noUser (noUser : '@' ∉ authority) :
    (hostText authority).map HostText.text = bracketedHost authority := by
  have alone : afterUserinfo authority = authority := by
    have all : authority.reverse.takeWhile (· ≠ '@') = authority.reverse := by
      refine List.takeWhile_eq_self_iff.mpr fun c mem => decide_eq_true ?_
      rintro rfl
      exact noUser (List.mem_reverse.mp mem)
    rw [afterUserinfo, all, List.reverse_reverse]
  rw [hostText, alone]
  unfold bracketedHost
  cases authority with
  | nil => rfl
  | cons c rest =>
      by_cases bracket : c = '['
      · subst bracket
        exact Option.map_map ..
      · simp [bracket, HostText.text]

theorem colon_notMem_of_hostText {t : List Char} (read : hostText authority = some (.plain t)) :
    ':' ∉ t := by
  unfold hostText at read
  split at read
  · obtain ⟨_, _, eq⟩ := Option.map_eq_some_iff.mp read
    cases eq
  · cases read
    exact notMem_cutAt ':' _

theorem scheme_of_checks {https http allow : Bool} (one : ¬ (!https && !http) = true)
    (two : ¬ (http && !allow) = true) : https = true ∨ (allow = true ∧ http = true) := by
  revert https http allow
  decide

theorem not_http_of_https (https : (afterText "https://" uri).isSome = true) :
    (afterText "http://" uri).isSome = false := by
  obtain ⟨rest, eq⟩ := exists_of_afterText https
  rw [afterText, eq]
  rfl

/-- With private hosts refused, what is accepted passes the checks before and the check of the
host. -/
theorem accepted_iff (some_ : uri ≠ "") :
    validateBackchannelLogoutUri ⟨allowHttp, false⟩ uri = none ↔
      Shaped allowHttp uri ∧ ∃ address text, Address.parse uri.toList = some address ∧
        hostText address.authority = some text ∧ text.text ≠ [] ∧
          isPrivateOrLoopbackHost text.text = false := by
  constructor
  · intro accepted
    unfold validateBackchannelLogoutUri at accepted
    rw [if_neg some_] at accepted
    split at accepted
    · cases accepted
    next short =>
    dsimp only at accepted
    split at accepted
    · cases accepted
    next one =>
    split at accepted
    · cases accepted
    next two =>
    split at accepted
    · cases accepted
    next noFragment =>
    split at accepted
    · cases accepted
    next noUser =>
    have scheme : (afterText "https://" uri).isSome = true ∨
        (allowHttp = true ∧ (afterText "http://" uri).isSome = true) :=
      scheme_of_checks one two
    obtain ⟨address, parsed, authority⟩ := parse_of_scheme (scheme.imp_right And.right) noFragment
    rw [← authority] at noUser accepted
    have texts := hostText_of_noUser noUser
    split at accepted
    · cases accepted
    next host bracketed =>
    rw [bracketed] at texts
    obtain ⟨text, written, rfl⟩ := Option.map_eq_some_iff.mp texts
    split at accepted
    · cases accepted
    next nonempty =>
    split at accepted
    · cases accepted
    next public_ =>
    refine ⟨⟨Nat.not_lt.mp short, scheme, noFragment, ?_⟩, address, text, parsed, written,
      nonempty, ?_⟩
    · intro address' parsed'
      rw [parsed] at parsed'
      cases parsed'
      exact noUser
    · simpa using public_
  · rintro ⟨shaped, address, text, parsed, written, nonempty, public_⟩
    obtain ⟨address', parsed', authority⟩ :=
      parse_of_scheme (shaped.scheme.imp_right And.right) shaped.noFragment
    rw [parsed] at parsed'
    cases parsed'
    have noUser := shaped.noUser address parsed
    have texts := hostText_of_noUser noUser
    rw [written, Option.map_some] at texts
    have one : ¬ (!(afterText "https://" uri).isSome &&
        !(afterText "http://" uri).isSome) = true := by
      rcases shaped.scheme with https | http
      · simp [https]
      · simp [http.2]
    have two : ¬ ((afterText "http://" uri).isSome && !allowHttp) = true := by
      rcases shaped.scheme with https | http
      · simp [not_http_of_https https]
      · simp [http.1]
    rw [validateBackchannelLogoutUri, if_neg some_, if_neg (Nat.not_lt.mpr shaped.short)]
    dsimp only
    rw [if_neg one, if_neg two, if_neg shaped.noFragment, ← authority, if_neg noUser, ← texts]
    dsimp only
    rw [if_neg nonempty, public_]
    rfl

/-! ## Logout targets -/

/-- A host is missed if it is internal and not classified so. -/
theorem missed_iff (read : hostText authority = some text) : Missed text ↔
    (∃ host, text.read = some host ∧ host.internal = true) ∧
      isPrivateOrLoopbackHost text.text = false := by
  cases text with
  | literal t => exact missed_literal_iff
  | plain t => exact missed_plain_iff (colon_notMem_of_hostText read)

theorem text_ne_nil {host : Host} (read : text.read = some host)
    (internal : host.internal = true) : text.text ≠ [] := by
  intro empty
  cases text with
  | literal t =>
      cases show t = [] from empty
      have none : (HostText.literal []).read = none := by decide
      rw [none] at read
      cases read
  | plain t =>
      cases show t = [] from empty
      have name : (HostText.plain []).read = some (.name []) := by decide
      rw [name] at read
      cases read
      exact absurd internal (by decide)

/-- A URI that is accepted while private targets are refused stands for no internal host, unless
it passes the checks before with a host that is missed. -/
theorem accepts_internal_iff (allowHttp : Bool) (uri : String) :
    (validateBackchannelLogoutUri ⟨allowHttp, false⟩ uri = none →
        ∀ host, urlHost uri.toList = some host → host.internal = false) ↔
      ¬ (Shaped allowHttp uri ∧ ∃ address text, Address.parse uri.toList = some address ∧
        hostText address.authority = some text ∧ Missed text) := by
  constructor
  · rintro safe ⟨shaped, address, text, parsed, written, missed⟩
    obtain ⟨⟨host, read, internal⟩, passed⟩ := (missed_iff written).mp missed
    have some_ : uri ≠ "" := by
      rintro rfl
      cases parsed
    have accepted := (accepted_iff some_).mpr
      ⟨shaped, address, text, parsed, written, text_ne_nil read internal, passed⟩
    have found : urlHost uri.toList = some host := by
      rw [urlHost, parsed, Option.bind_some, written, Option.bind_some, read]
    have external := safe accepted host found
    rw [internal] at external
    cases external
  · intro none accepted host found
    rw [← Bool.not_eq_true]
    intro internal
    obtain ⟨address, parsed, found⟩ := Option.bind_eq_some_iff.mp found
    obtain ⟨text, written, read⟩ := Option.bind_eq_some_iff.mp found
    have some_ : uri ≠ "" := by
      rintro rfl
      cases parsed
    obtain ⟨shaped, address', text', parsed', written', _, passed⟩ :=
      (accepted_iff some_).mp accepted
    rw [parsed] at parsed'
    obtain rfl := Option.some.inj parsed'
    rw [written] at written'
    obtain rfl := Option.some.inj written'
    exact none ⟨shaped, address, text, parsed, written,
      (missed_iff written).mpr ⟨⟨host, read, internal⟩, passed⟩⟩

/-- `https://[0:0:0:0:0:0:0:1]/` is the loopback address, and is accepted. -/
theorem loopback_accepted : ¬ ∀ (allowHttp : Bool) (uri : String),
    validateBackchannelLogoutUri ⟨allowHttp, false⟩ uri = none →
      ∀ host, urlHost uri.toList = some host → host.internal = false := by
  intro all
  have external := all false "https://[0:0:0:0:0:0:0:1]/logout" (by decide)
    (.ipv6 [0, 0, 0, 0, 0, 0, 0, 1]) (by decide)
  exact absurd external (by decide)

/-- More that is missed: a short form, an octal one, a dot at the end, a name under `localhost`
and a mapped address in hexadecimal. -/
example : ["https://127.1/", "https://0177.0.0.1/", "https://127.0.0.1./", "https://x.localhost/",
    "https://[::ffff:7f00:1]/"].all (fun uri =>
      validateBackchannelLogoutUri ⟨false, false⟩ uri = none &&
        (urlHost uri.toList).any Host.internal) = true := by
  decide

end

end RuleSet

end Fulla
