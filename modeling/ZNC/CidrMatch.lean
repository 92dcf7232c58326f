/-
Which addresses a range takes in: `CUtils::CheckCIDR` of `src/Utils.cpp`, for an address, a slash and a prefix.

The masks of both families take the first bits of an address. The prefix is read by `ToInt`, so white space and a sign may stand in
front of the number and any text behind it, and the number is cut to 32 bits; and `Split` passes over slashes.

An `Address` is a text for which the resolver gives the same bytes for its family and without one, and none for another family.

Results:
- `inRange_iff`: the masks compare the first bits;
- `checkCIDR_range`: an address against a range of any prefix, `checkCIDR_number` of a number;
- `checkCIDR_iff`: the prefixes for which ranges are as they say.
-/
import ZNC.ServerLine
import ZNC.WildCmp

namespace ZNC.CidrMatch

open CString Wildcards NetworkClone List

/-! ## The first bits -/

/-- the bit `k` of an address, from the left -/
def bit : SockAddr → ℕ → Bool
  | .inet sin_addr, k => sin_addr.toNat.testBit (31 - k)
  | .inet6 sin6_addr, k => if h : k / 8 < 16 then (sin6_addr ⟨k / 8, h⟩).toNat.testBit (7 - k % 8) else false
  | .other _, _ => false

/-- how many bits an address has -/
def width : AddressFamily → ℕ
  | .AF_INET => 32
  | .AF_INET6 => 128
  | .other _ => 0

/-- the first `p` bits agree -/
def Agree (p : ℕ) (a b : SockAddr) : Prop := ∀ k < p, bit a k = bit b k

theorem Agree.mono {p q : ℕ} (h : p ≤ q) {a b : SockAddr} (hq : Agree q a b) : Agree p a b := fun k hk => hq k (hk.trans_le h)

theorem and_eq_iff {w m a b : ℕ} (ha : a < 2 ^ w) (hb : b < 2 ^ w) :
    m &&& a = m &&& b ↔ ∀ i < w, m.testBit i = true → a.testBit i = b.testBit i := by
  constructor
  · intro h i _ hm
    have hbit := congrArg (Nat.testBit · i) h
    simpa only [Nat.testBit_and, hm, Bool.true_and] using hbit
  · intro h
    refine Nat.eq_of_testBit_eq fun i => ?_
    rw [Nat.testBit_and, Nat.testBit_and]
    cases hm : m.testBit i with
    | false => rfl
    | true =>
      rcases Nat.lt_or_ge i w with hi | hi
      · rw [h i hi hm]
      · have hpow := Nat.pow_le_pow_right (show 0 < 2 by decide) hi
        rw [Nat.testBit_lt_two_pow (ha.trans_le hpow), Nat.testBit_lt_two_pow (hb.trans_le hpow)]

theorem testBit_mask {w s i : ℕ} (hi : i < w) : (((2 ^ w - 1) <<< s) % 2 ^ w).testBit i = decide (s ≤ i) := by
  rw [Nat.testBit_mod_two_pow, Nat.testBit_shiftLeft, Nat.testBit_two_pow_sub_one]
  by_cases h : s ≤ i
  · simp [hi, h, show i - s < w by omega]
  · simp [h]

theorem toNat_inBitmask {p : ℕ} (hp : 0 < p) (hle : p ≤ 32) : (inBitmask p).toNat = ((2 ^ 32 - 1) <<< (32 - p)) % 2 ^ 32 := by
  have hshift : (UInt32.ofNat (32 - p)).toNat % 32 = 32 - p := by
    rw [UInt32.toNat_ofNat', Nat.mod_eq_of_lt (show 32 - p < 2 ^ 32 by omega), Nat.mod_eq_of_lt (by omega)]
  rw [inBitmask, UInt32.toNat_shiftLeft, hshift]
  rfl

theorem inBitmask_iff {p : ℕ} (hp : 0 < p) (hle : p ≤ 32) (a b : UInt32) :
    inBitmask p &&& a = inBitmask p &&& b ↔ Agree p (.inet a) (.inet b) := by
  rw [← UInt32.toNat_inj, UInt32.toNat_and, UInt32.toNat_and, and_eq_iff a.toNat_lt b.toNat_lt, toNat_inBitmask hp hle]
  constructor
  · intro h k hk
    exact h (31 - k) (by omega) (by rw [testBit_mask (by omega)]; exact decide_eq_true (by omega))
  · intro h i hi hmask
    rw [testBit_mask hi] at hmask
    have hle := of_decide_eq_true hmask
    have hbit := h (31 - i) (by omega)
    simp only [bit, show 31 - (31 - i) = i by omega] at hbit
    exact hbit

theorem testBit_in6aBitmask (p : ℕ) (i : Fin 16) {t : ℕ} (ht : t < 8) :
    (in6aBitmask p i).toNat.testBit t = decide (8 * i.val + (7 - t) < p) := by
  rw [in6aBitmask]
  split_ifs with hall hsome
  · have hones : (0xFF : UInt8).toNat = 2 ^ 8 - 1 := rfl
    rw [hones, Nat.testBit_two_pow_sub_one, decide_eq_true ht, decide_eq_true (by omega)]
  · have hshift : (UInt8.ofNat (8 - (p - 8 * i.val))).toNat % 8 = 8 - (p - 8 * i.val) := by
      rw [UInt8.toNat_ofNat', Nat.mod_eq_of_lt (show 8 - (p - 8 * i.val) < 2 ^ 8 by omega), Nat.mod_eq_of_lt (by omega)]
    have hmask : ((0xFF : UInt8) <<< UInt8.ofNat (8 - (p - 8 * i.val))).toNat =
        ((2 ^ 8 - 1) <<< (8 - (p - 8 * i.val))) % 2 ^ 8 := by
      rw [UInt8.toNat_shiftLeft, hshift]
      rfl
    rw [hmask, testBit_mask ht]
    exact decide_eq_decide.2 (by omega)
  · have hzero : (0 : UInt8).toNat = 0 := rfl
    rw [hzero, Nat.zero_testBit, decide_eq_false (by omega)]

theorem in6aBitmask_iff {p : ℕ} (hle : p ≤ 128) (a b : Fin 16 → UInt8) :
    (∀ i, in6aBitmask p i &&& a i = in6aBitmask p i &&& b i) ↔ Agree p (.inet6 a) (.inet6 b) := by
  constructor
  · intro h k hk
    have hi : k / 8 < 16 := by omega
    have hbyte := h ⟨k / 8, hi⟩
    rw [← UInt8.toNat_inj, UInt8.toNat_and, UInt8.toNat_and, and_eq_iff (UInt8.toNat_lt _) (UInt8.toNat_lt _)] at hbyte
    have hbit := hbyte (7 - k % 8) (by omega) (by
      rw [testBit_in6aBitmask p _ (by omega)]
      exact decide_eq_true (by simp only; omega))
    simpa only [bit, dif_pos hi] using hbit
  · intro h i
    rw [← UInt8.toNat_inj, UInt8.toNat_and, UInt8.toNat_and, and_eq_iff (UInt8.toNat_lt _) (UInt8.toNat_lt _)]
    intro t ht hmask
    rw [testBit_in6aBitmask p i ht] at hmask
    have hlt := of_decide_eq_true hmask
    have hbit := h (8 * i.val + (7 - t)) hlt
    have hdiv : (8 * i.val + (7 - t)) / 8 = i.val := by omega
    have hmod : 7 - (8 * i.val + (7 - t)) % 8 = t := by omega
    simpa only [bit, hdiv, hmod, dif_pos i.isLt, Fin.eta] using hbit

theorem inRange_iff {p : ℕ} (hp : 0 < p) (hle : p ≤ 128) {a b : SockAddr} (hsame : a.ai_family = b.ai_family) :
    inRange p a b = true ↔ p ≤ width a.ai_family ∧ Agree p a b := by
  cases a with
  | inet sin_addr =>
    cases b with
    | inet sin_addr' =>
      rw [inRange, Bool.and_eq_true, decide_eq_true_eq, decide_eq_true_eq]
      exact and_congr_right fun hwidth => inBitmask_iff hp hwidth sin_addr sin_addr'
    | inet6 => exact AddressFamily.noConfusion hsame
    | other => exact AddressFamily.noConfusion hsame
  | inet6 sin6_addr =>
    cases b with
    | inet => exact AddressFamily.noConfusion hsame
    | inet6 sin6_addr' =>
      rw [inRange, all_eq_true]
      simp only [decide_eq_true_eq, mem_finRange, forall_const]
      rw [in6aBitmask_iff hle]
      exact (and_iff_right hle).symm
    | other => exact AddressFamily.noConfusion hsame
  | other =>
    constructor
    · intro h
      cases b <;> exact absurd h Bool.false_ne_true
    · intro h
      exact absurd (hp.trans_le h.1) (Nat.lt_irrefl 0)

/-! ## The text of a range -/

/-- an address under the text that the resolver has it from: its bytes for its family and without one, none for another -/
structure Address (getaddrinfo : Resolver) where
  text : CString
  addr : SockAddr
  family : addr.ai_family = .AF_INET ∨ addr.ai_family = .AF_INET6
  text_ne : text ≠ []
  slash : ch '/' ∉ text
  nul : (0 : UInt8) ∉ text
  resolved : getaddrinfo text none = some addr
  same : getaddrinfo text (some addr.ai_family) = some addr
  others : ∀ f ≠ addr.ai_family, getaddrinfo text (some f) = none

variable {getaddrinfo : Resolver}

/-- `range/prefix` -/
def Address.range (range : Address getaddrinfo) (sPrefix : CString) : CString := range.text ++ ch '/' :: sPrefix

variable (ip range : Address getaddrinfo) (sPrefix : CString)

theorem Address.width_le : 0 < width ip.addr.ai_family ∧ width ip.addr.ai_family ≤ 128 := by
  rcases ip.family with h | h
  · rw [h]
    decide
  · rw [h]
    decide

theorem cStr_range :
    (range.range sPrefix).cStr = range.text ++ ch '/' :: sPrefix.cStr := by
  rw [Address.range, cStr_append range.nul, cStr, takeWhile_cons_of_pos (by decide), cStr]

theorem wildCmp_range :
    CString.wildCmp (range.range sPrefix) ip.text = false := by
  refine Bool.eq_false_iff.2 fun h => ip.slash ?_
  rw [CString.wildCmp, wildHead_iff, cStr_range, cStr_eq_self ip.nul] at h
  obtain ⟨t, t', htext, -, hrest⟩ := matches_append.1 h
  obtain ⟨b, t'', rfl, hletter, -⟩ := (matches_letter (by decide)).1 hrest
  rw [htext, hletter.resolve_right (by decide)]
  exact mem_append_right _ mem_cons_self

theorem split_range :
    (range.range sPrefix).split (ch '/') false = range.text :: sPrefix.split (ch '/') false := by
  rw [split, cStr_range, splitLoop_append range.slash, nil_append, splitLoop, if_pos rfl, Bool.false_or,
    if_pos (decide_eq_true range.text_ne), split]

/-! ## Prefixes -/

/-- the prefix that the code takes from behind the slash, for a family of `w` bits -/
def Accepted (sPrefix : CString) (w : ℕ) (p : ℕ) : Prop :=
  ∃ sRoutingPrefix, sPrefix.split (ch '/') false = [sRoutingPrefix] ∧ sRoutingPrefix.toInt = p ∧ p ≤ w ∧
    (p = 0 → sRoutingPrefix = lit "0")

theorem accepted_iff {sPrefix sRoutingPrefix : CString} (h : sPrefix.split (ch '/') false = [sRoutingPrefix]) (w p : ℕ) :
    Accepted sPrefix w p ↔ sRoutingPrefix.toInt = p ∧ p ≤ w ∧ (p = 0 → sRoutingPrefix = lit "0") := by
  rw [Accepted, h]
  simp only [List.cons.injEq, and_true, exists_eq_left']

theorem checkCIDR_range :
    checkCIDR getaddrinfo ip.text (range.range sPrefix) = true ↔
      ip.addr.ai_family = range.addr.ai_family ∧
        ∃ p, Accepted sPrefix (width range.addr.ai_family) p ∧ Agree p ip.addr range.addr := by
  have hwidth := range.width_le.2
  rw [checkCIDR, wildCmp_range, if_neg Bool.false_ne_true, split_range, cStr_eq_self ip.nul, ip.resolved]
  rcases hsplit : sPrefix.split (ch '/') false with - | ⟨sRoutingPrefix, - | ⟨sNext, rest⟩⟩
  · refine iff_of_false Bool.false_ne_true ?_
    rintro ⟨-, p, ⟨q, hq, -⟩, -⟩
    exact cons_ne_nil q [] (hq.symm.trans hsplit)
  · simp only [accepted_iff hsplit, cStr_eq_self range.nul]
    generalize sRoutingPrefix.toInt = i
    by_cases hfamily : ip.addr.ai_family = range.addr.ai_family
    · simp only [hfamily, range.same, true_and]
      split_ifs with hout hzero hall
      · refine iff_of_false not_false ?_
        rintro ⟨p, ⟨rfl, hle, -⟩, -⟩
        omega
      · refine iff_of_false not_false ?_
        rintro ⟨p, ⟨rfl, -, htext⟩, -⟩
        exact hzero.2 (htext (Int.ofNat_eq_zero.1 hzero.1))
      · refine iff_of_true rfl ⟨0, ⟨hall, Nat.zero_le _, fun _ => ?_⟩, fun k hk => absurd hk (Nat.not_lt_zero k)⟩
        exact Classical.not_not.1 fun hne => hzero ⟨hall, hne⟩
      · obtain ⟨p, rfl⟩ := Int.eq_ofNat_of_zero_le (show 0 ≤ i by omega)
        rw [Int.toNat_natCast, inRange_iff (by omega) (by omega) hfamily, hfamily]
        constructor
        · rintro ⟨hle, hagree⟩
          exact ⟨p, ⟨rfl, hle, fun hp => absurd (congrArg Int.ofNat hp) hall⟩, hagree⟩
        · rintro ⟨q, ⟨hq, hle, -⟩, hagree⟩
          rw [Int.ofNat_inj.1 hq]
          exact ⟨hle, hagree⟩
    · refine iff_of_false ?_ fun h => hfamily h.1
      simp only [range.others _ hfamily]
      split_ifs <;> exact not_false
  · refine iff_of_false Bool.false_ne_true ?_
    rintro ⟨-, p, ⟨q, hq, -⟩, -⟩
    exact cons_ne_nil sNext rest (List.cons.inj (hsplit.symm.trans hq)).2

/-! ## Numbers -/

/-- a number within `w` bits -/
def Number (sPrefix : CString) (w : ℕ) : Prop :=
  sPrefix ≠ [] ∧ (∀ c ∈ sPrefix, isdigit c = true) ∧ sPrefix.decimal ≤ w

theorem toInt_digits {s : CString} (hne : s ≠ []) (hdigits : ∀ c ∈ s, isdigit c = true) (hlt : s.decimal < 2 ^ 31) :
    s.toInt = s.decimal := by
  obtain ⟨c, p, rfl⟩ := exists_cons_of_ne_nil hne
  have hnul : (0 : UInt8) ∉ c :: p := fun h => absurd (hdigits 0 h) (by decide)
  have hall : digits (c :: p) = c :: p := takeWhile_eq_self_iff.2 hdigits
  obtain ⟨hspace, hminus, hplus⟩ := isdigit_cases c (hdigits c mem_cons_self)
  have hdrop : (c :: p).dropWhile isspace = c :: p := dropWhile_cons_of_neg (by simp [hspace])
  have hunsigned : unsigned (c :: p) = c :: p := (unsigned_of_digits (hall.trans_ne hne)).1
  have hread : (strtol (c :: p) 10).1 = (decimal (c :: p) : ℤ) := by
    rw [strtol_ten, hunsigned, hall, if_neg hne, hdrop, if_neg (by simp [hminus])]
  rw [toInt, cStr_eq_self hnul, hread, Int.bmod_def]
  omega

theorem accepted_uintText {p w : ℕ} (hp : p ≤ w) (hw : w ≤ 128) (q : ℕ) : Accepted (uintText p) w q ↔ q = p := by
  have hsplit : (uintText p).split (ch '/') false = [uintText p] := by
    have hloop := splitLoop_append (not_mem_uintText (b := ch '/') (by decide) p) false [] []
    rw [split, cStr_eq_self (not_mem_uintText (by decide) p), ← append_nil (uintText p), hloop, nil_append, splitLoop,
      if_neg (uintText_ne p), append_nil]
  have hint : (uintText p).toInt = p := by
    rw [toInt_digits (uintText_ne p) (fun c hc => isdigit_uintText hc) (by rw [decimal_uintText]; omega), decimal_uintText]
  rw [accepted_iff hsplit, hint, Int.ofNat_inj]
  constructor
  · intro h
    exact h.1.symm
  · rintro rfl
    refine ⟨rfl, hp, ?_⟩
    rintro rfl
    rfl

/-- what is said of an address and a range: in one family, a number within the family's width asks for so many bits; every other
prefix is rejected -/
def Meets (ip range : Address getaddrinfo) (sPrefix : CString) : Prop :=
  (ip.addr.ai_family = range.addr.ai_family → ∀ p ≤ width range.addr.ai_family, sPrefix = uintText p →
    (checkCIDR getaddrinfo ip.text (range.range sPrefix) = true ↔ Agree p ip.addr range.addr)) ∧
  (¬Number sPrefix (width range.addr.ai_family) → checkCIDR getaddrinfo ip.text (range.range sPrefix) = false)

/-- **A number** is compared with so many bits. -/
theorem checkCIDR_number {p : ℕ} (hp : p ≤ width range.addr.ai_family) :
    checkCIDR getaddrinfo ip.text (range.range (uintText p)) = true ↔
      ip.addr.ai_family = range.addr.ai_family ∧ Agree p ip.addr range.addr := by
  rw [checkCIDR_range]
  simp only [accepted_uintText hp range.width_le.2, exists_eq_left]

/-- **Ranges**: they are as they say unless the prefix is no number and the code takes one from it; and a match is a match at every
shorter prefix. -/
theorem checkCIDR_iff (getaddrinfo : Resolver) (range : Address getaddrinfo) (sPrefix : CString) :
    ((∀ ip : Address getaddrinfo, Meets ip range sPrefix) ↔
      Number sPrefix (width range.addr.ai_family) ∨ ∀ p, ¬Accepted sPrefix (width range.addr.ai_family) p) ∧
    ∀ (ip : Address getaddrinfo) (p q : ℕ), p ≤ q → q ≤ width range.addr.ai_family →
      checkCIDR getaddrinfo ip.text (range.range (uintText q)) = true →
      checkCIDR getaddrinfo ip.text (range.range (uintText p)) = true := by
  refine ⟨⟨fun h => ?_, fun h ip => ⟨?_, fun hno => ?_⟩⟩, ?_⟩
  · by_cases hnumber : Number sPrefix (width range.addr.ai_family)
    · exact .inl hnumber
    · refine .inr fun p hp => ?_
      -- the address of the range is in the range
      have hin := (checkCIDR_range range range sPrefix).2 ⟨rfl, p, hp, fun k _ => rfl⟩
      rw [(h range).2 hnumber] at hin
      exact Bool.false_ne_true hin
  · rintro hsame p hp rfl
    rw [checkCIDR_number ip range hp]
    exact and_iff_right hsame
  · refine Bool.eq_false_iff.2 fun hin => ?_
    obtain ⟨-, p, hp, -⟩ := (checkCIDR_range ip range sPrefix).1 hin
    exact h.resolve_left hno p hp
  · intro ip p q hpq hq hin
    obtain ⟨hsame, hagree⟩ := (checkCIDR_number ip range hq).1 hin
    exact (checkCIDR_number ip range (hpq.trans hq)).2 ⟨hsame, hagree.mono hpq⟩

/-- `getaddrinfo` for the addresses 127.0.0.0 to 127.0.0.9 -/
def numericHost : Resolver := fun node family =>
  match node with
  | [a, b, c, d, e, f, g, h, n] =>
    if [a, b, c, d, e, f, g, h] = lit "127.0.0." ∧ isdigit n = true ∧ (family = none ∨ family = some .AF_INET) then
      some (.inet (0x7F000000 + (n - ch '0').toUInt32))
    else none
  | _ => none

def host (n : UInt8) (h : isdigit n = true) : Address numericHost where
  text := lit "127.0.0." ++ [n]
  addr := .inet (0x7F000000 + (n - ch '0').toUInt32)
  family := .inl rfl
  text_ne := append_ne_nil_of_right_ne_nil _ (cons_ne_nil n [])
  slash hmem := by
    rcases mem_append.1 hmem with hmem | hmem
    · exact absurd hmem (by decide)
    · rw [← mem_singleton.1 hmem] at h
      exact absurd h (by decide)
  nul hmem := by
    rcases mem_append.1 hmem with hmem | hmem
    · exact absurd hmem (by decide)
    · rw [← mem_singleton.1 hmem] at h
      exact absurd h (by decide)
  resolved := if_pos ⟨rfl, h, .inl rfl⟩
  same := if_pos ⟨rfl, h, .inr rfl⟩
  others f hf := if_neg fun hcond => hcond.2.2.elim (Option.some_ne_none f) fun hsome => hf (Option.some.inj hsome)

/-- 127.0.0.2 is in 127.0.0.3/31 and therefore in 127.0.0.3/8. -/
theorem checkCIDR_neighbours : checkCIDR numericHost (lit "127.0.0.2") (lit "127.0.0.3" ++ ch '/' :: uintText 8) = true :=
  (checkCIDR_iff numericHost (host (ch '3') (by decide)) []).2 (host (ch '2') (by decide)) 8 31 (by decide) (by decide)
    (by decide +kernel)

/-- The range 127.0.0.1/8abc takes in 127.0.0.2. -/
theorem checkCIDR_garbage : ¬Meets (host (ch '2') (by decide)) (host (ch '1') (by decide)) (lit "8abc") := by
  intro h
  have hin : checkCIDR numericHost (lit "127.0.0.2") (lit "127.0.0.1/8abc") = true := by decide +kernel
  have hno (w : ℕ) : ¬Number (lit "8abc") w := fun hnumber => absurd (hnumber.2.1 (ch 'a') (by decide)) (by decide)
  exact Bool.false_ne_true ((h.2 (hno _)).symm.trans hin)

end ZNC.CidrMatch
