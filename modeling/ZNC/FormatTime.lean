/-
Times with fractions of a second: `CUtils::FormatTime` for a `timeval`, of `src/Utils.cpp`.

One loop over the format looks for `%f` and `%Nf` and puts the digits in their place; what it makes of the format goes to the
`FormatTime` for seconds, which is `strftime`.

The digits are filled up with zeros to the left, and how many is computed without a sign. With `%0f` the value is the text "0",
longer than asked for, so the number of zeros is -1 as a `size_t`. Of several digits the last one counts.

Model: `strftime` stands for the `FormatTime` for seconds and the time zone. The result `error` is a `std::length_error`.

Results:
- `fractionText_eq`: the digits of a fraction of the second;
- `formatLoop_eq`: the loop goes through the format item by item;
- `formatTime_iff`: the formats that are handled as they say.
-/
import ZNC.ServerLine

namespace ZNC.FormatTime

open CString NetworkClone List

/-! ## Model -/

structure Timeval where
  tv_sec : ℤ
  tv_usec : ℕ
  usec_lt : tv_usec < 1000000

inductive Exception where
  | length_error
deriving DecidableEq, Repr

/-- `CString(n, c)`, at most `max_size()` long -/
def fill (n : ℕ) (c : UInt8) : Except Exception CString :=
  if 2 ^ 63 ≤ n then .error .length_error else .ok (List.replicate n c)

/-- `iVal`: the two loops over `iDigitDelta` -/
def scaled (tv_usec iDigits : ℕ) : ℕ := (· / 10)^[6 - iDigits] ((· * 10)^[iDigits - 6] tv_usec)

/-- the text that `case 'f'` puts in -/
def fractionText (tv_usec iDigits : ℕ) : Except Exception CString := do
  let sVal := uintText (scaled tv_usec iDigits)
  return (← fill ((iDigits + 2 ^ 64 - sVal.length) % 2 ^ 64) (ch '0')) ++ sVal

/-- the variables of the loop -/
structure Scanner where
  sFormat2 : CString
  bInFormat : Bool
  iDigits : ℕ
  uLastCopied : ℕ
  uFormatStart : ℕ

/-- one round, for `c = sFormat[i]` -/
def step (tv_usec : ℕ) (sFormat : CString) (i : ℕ) (c : UInt8) (s : Scanner) : Except Exception Scanner :=
  if !s.bInFormat then
    .ok (if c = ch '%' then { s with uFormatStart := i, bInFormat := true, iDigits := 3 } else s)
  else if isdigit c then .ok { s with iDigits := c.toNat - (ch '0').toNat }
  else if c = ch 'f' then do
    let sVal ← fractionText tv_usec s.iDigits
    return { s with
      sFormat2 := s.sFormat2 ++ (sFormat.drop s.uLastCopied).take (s.uFormatStart - s.uLastCopied) ++ sVal
      uLastCopied := i + 1
      bInFormat := false }
  else .ok { s with bInFormat := false }

/-- the loop, from `i` on -/
def formatLoop (tv_usec : ℕ) (sFormat : CString) : ℕ → CString → Scanner → Except Exception Scanner
  | _, [], s => .ok s
  | i, c :: rest, s => do formatLoop tv_usec sFormat (i + 1) rest (← step tv_usec sFormat i c s)

/-- before the loop; `iDigits` and `uFormatStart` are set before they are read -/
def Scanner.start : Scanner := ⟨[], false, 0, 0, 0⟩

def Scanner.handedOn (s : Scanner) (sFormat : CString) : CString :=
  if s.uLastCopied ≠ 0 then s.sFormat2 ++ sFormat.drop s.uLastCopied else sFormat

def formatTime (strftime : ℤ → CString → CString) (tv : Timeval) (sFormat : CString) : Except Exception CString := do
  let s ← formatLoop tv.tv_usec sFormat 0 sFormat .start
  return strftime tv.tv_sec (s.handedOn sFormat)

/-! ## Items of a format -/

inductive Item where
  | letter (c : UInt8)
  /-- the percent sign, digits, and the letter that ends it -/
  | conversion (n : CString) (c : UInt8)
  | unfinished (n : CString)

/-- the items of what follows, where `n` are the digits behind an open percent sign -/
def itemsFrom : Option CString → CString → List Item
  | none, [] => []
  | some n, [] => [.unfinished n]
  | none, c :: s => if c = ch '%' then itemsFrom (some []) s else .letter c :: itemsFrom none s
  | some n, c :: s => if isdigit c then itemsFrom (some (n ++ [c])) s else .conversion n c :: itemsFrom none s

def items (sFormat : CString) : List Item := itemsFrom none sFormat

def Item.text : Item → CString
  | .letter c => [c]
  | .conversion n c => ch '%' :: n ++ [c]
  | .unfinished n => ch '%' :: n

/-- the digit `n` as a letter -/
def digit (n : ℕ) : UInt8 := (Nat.digitChar n).toUInt8

/-- the first `N` decimals of a fraction of the second -/
def decimals (tv_usec N : ℕ) : CString := (List.range N).map fun k => digit (tv_usec * 10 ^ (k + 1) / 10 ^ 6 % 10)

/-- the precision that `%f` and `%Nf` ask for -/
def Item.precision : Item → Option ℕ
  | .conversion [] c => if c = ch 'f' then some 3 else none
  | .conversion [n] c => if c = ch 'f' then some (n.toNat - (ch '0').toNat) else none
  | _ => none

/-- what is to be handed on for an item -/
def Item.wanted (tv_usec : ℕ) (x : Item) : CString := (x.precision.map (decimals tv_usec)).getD x.text

/-- all digits but none or one that is not zero are handled in another way -/
def Item.Handled : Item → Prop
  | .conversion n c => c = ch 'f' → n = [] ∨ ∃ d, n = [d] ∧ d ≠ ch '0'
  | _ => True

/-! ## The digits -/

theorem div_iterate (n x : ℕ) : (· / 10)^[n] x = x / 10 ^ n := by
  induction n generalizing x with
  | zero => exact (Nat.div_one x).symm
  | succ n ih => rw [Function.iterate_succ_apply, ih, Nat.div_div_eq_div_mul, Nat.pow_succ']

theorem scaled_eq (tv_usec N : ℕ) : scaled tv_usec N = tv_usec * 10 ^ N / 10 ^ 6 := by
  rw [scaled, div_iterate, mul_right_iterate]
  rcases Nat.le_total N 6 with h | h
  · have h6 : (10 : ℕ) ^ 6 = 10 ^ (6 - N) * 10 ^ N := by rw [← pow_add, Nat.sub_add_cancel h]
    rw [Nat.sub_eq_zero_of_le h, pow_zero, h6, Nat.mul_div_mul_right _ _ (by positivity)]
    exact congrArg (· / 10 ^ (6 - N)) (mul_one tv_usec)
  · have hN : (10 : ℕ) ^ N = 10 ^ (N - 6) * 10 ^ 6 := by rw [← pow_add, Nat.sub_add_cancel h]
    rw [Nat.sub_eq_zero_of_le h, pow_zero, Nat.div_one, hN, ← mul_assoc, Nat.mul_div_cancel _ (by positivity)]

theorem scaled_lt {tv_usec : ℕ} (h : tv_usec < 1000000) (N : ℕ) : scaled tv_usec N < 10 ^ N := by
  rw [scaled_eq]
  refine Nat.div_lt_of_lt_mul ?_
  exact Nat.mul_lt_mul_of_pos_right h (by positivity)

theorem uintText_small {v : ℕ} (h : v < 10) : uintText v = [digit v] := by
  rw [uintText, lit, Nat.toString_eq_repr, Nat.toList_repr, Nat.toDigits_of_lt_base h]
  rfl

theorem uintText_large {v : ℕ} (h : 10 ≤ v) : uintText v = uintText (v / 10) ++ [digit (v % 10)] := by
  simp only [uintText, lit, Nat.toString_eq_repr, Nat.toList_repr]
  rw [Nat.toDigits_of_base_le (by decide) h, map_append]
  rfl

theorem length_uintText_le {v N : ℕ} (hN : 0 < N) (h : v < 10 ^ N) : (uintText v).length ≤ N := by
  rw [uintText, lit, length_map, Nat.toString_eq_repr, Nat.toList_repr]
  exact (Nat.length_toDigits_le_iff (by decide) hN).2 h

/-- the text of a number, with zeros in front of it -/
def padded (N v : ℕ) : CString := List.replicate (N - (uintText v).length) (ch '0') ++ uintText v

theorem padded_succ {N v : ℕ} (hN : 0 < N) (h : v < 10 ^ (N + 1)) : padded (N + 1) v = padded N (v / 10) ++ [digit (v % 10)] := by
  rcases Nat.lt_or_ge v 10 with hsmall | hlarge
  · have h0 : v / 10 = 0 := Nat.div_eq_of_lt hsmall
    obtain ⟨M, rfl⟩ := Nat.exists_eq_succ_of_ne_zero hN.ne'
    rw [padded, padded, h0, uintText_small hsmall, uintText_small (by decide), Nat.mod_eq_of_lt hsmall]
    exact congrArg (· ++ [digit v]) replicate_succ'
  · have hlen : (uintText (v / 10)).length ≤ N := length_uintText_le hN (Nat.div_lt_of_lt_mul (by rw [← Nat.pow_succ']; exact h))
    rw [padded, padded, uintText_large hlarge, length_append, length_singleton, Nat.add_sub_add_right, append_assoc]

/-- **The digits of a number** that is filled up with zeros. -/
theorem padded_eq {N : ℕ} (hN : 0 < N) {v : ℕ} (h : v < 10 ^ N) :
    padded N v = (List.range N).map fun k => digit (v / 10 ^ (N - 1 - k) % 10) := by
  induction N, hN using Nat.le_induction generalizing v with
  | base =>
    rw [padded, uintText_small (by simpa using h)]
    simp [Nat.mod_eq_of_lt (show v < 10 by simpa using h)]
  | succ N hN ih =>
    rw [padded_succ hN h, ih (Nat.div_lt_of_lt_mul (by rw [← Nat.pow_succ']; exact h)), range_succ, map_append]
    congr 1
    · refine map_congr_left fun k hk => ?_
      have hk := mem_range.1 hk
      rw [Nat.div_div_eq_div_mul, ← Nat.pow_succ', show (N - 1 - k).succ = N + 1 - 1 - k by omega]
    · simp

/-- **The text that is put in** has the decimals, one at least; without any, the number of zeros wraps around. -/
theorem fractionText_eq {tv_usec : ℕ} (h : tv_usec < 1000000) {N : ℕ} (hN : N ≤ 9) :
    fractionText tv_usec N = if N = 0 then .error .length_error else .ok (decimals tv_usec N) := by
  rw [fractionText]
  split_ifs with h0
  · have hv : scaled tv_usec 0 = 0 := by
      have hlt := scaled_lt h 0
      omega
    rw [h0, hv]
    rfl
  · have hlt := scaled_lt h N
    have hpos : 0 < N := Nat.pos_of_ne_zero h0
    have hlen := length_uintText_le hpos hlt
    have hzeros : (N + 2 ^ 64 - (uintText (scaled tv_usec N)).length) % 2 ^ 64 =
        N - (uintText (scaled tv_usec N)).length := by
      omega
    have hfill : fill (N - (uintText (scaled tv_usec N)).length) (ch '0') =
        .ok (List.replicate (N - (uintText (scaled tv_usec N)).length) (ch '0')) := if_neg (by omega)
    rw [hzeros, hfill]
    change Except.ok (padded N (scaled tv_usec N)) = _
    rw [padded_eq hpos hlt, decimals, scaled_eq]
    refine congrArg Except.ok (map_congr_left fun k hk => ?_)
    have hk := mem_range.1 hk
    have hpow : tv_usec * 10 ^ N = tv_usec * 10 ^ (k + 1) * 10 ^ (N - 1 - k) := by
      rw [mul_assoc, ← pow_add, show k + 1 + (N - 1 - k) = N by omega]
    rw [hpow, Nat.div_div_eq_div_mul, Nat.mul_div_mul_right _ _ (by positivity)]

/-! ## The loop goes through the items -/

/-- the text of an item as the code puts it out -/
def made (tv_usec : ℕ) : Item → Except Exception CString
  | .conversion n c =>
    if c = ch 'f' then fractionText tv_usec (n.getLast?.elim 3 fun d => d.toNat - (ch '0').toNat)
    else .ok (Item.conversion n c).text
  | x => .ok x.text

/-- the text of an item behind the texts before it -/
def append (tv_usec : ℕ) (out : CString) (x : Item) : Except Exception CString := do return out ++ (← made tv_usec x)

/-- what is read of the item that is open -/
def opened : Option CString → CString
  | none => []
  | some n => ch '%' :: n

/-- the loop at `i`, with the open item and the text of the items before it -/
structure Reading (sFormat : CString) (s : Scanner) (i : ℕ) (n : Option CString) (out : CString) : Prop where
  mode : s.bInFormat = n.isSome
  digits : ∀ d, n = some d → s.uFormatStart + (d.length + 1) = i ∧ s.iDigits = d.getLast?.elim 3 fun c => c.toNat - (ch '0').toNat
  copied : s.uLastCopied + (opened n).length ≤ i
  item : sFormat.drop (i - (opened n).length) = opened n ++ sFormat.drop i
  text : out = s.sFormat2 ++ (sFormat.drop s.uLastCopied).take (i - (opened n).length - s.uLastCopied)
  nothing : s.uLastCopied = 0 → s.sFormat2 = []

theorem reading_start (sFormat : CString) : Reading sFormat .start 0 none [] :=
  ⟨rfl, nofun, le_rfl, rfl, rfl, fun _ => rfl⟩

variable {tv_usec : ℕ} {sFormat : CString} {s : Scanner} {i : ℕ} {n : Option CString} {out : CString}

theorem Reading.handedOn (h : Reading sFormat s i n out) (hi : sFormat.drop i = []) : s.handedOn sFormat = out ++ opened n := by
  have hitem := h.item
  rw [hi, append_nil] at hitem
  have hlast : sFormat.drop s.uLastCopied =
      (sFormat.drop s.uLastCopied).take (i - (opened n).length - s.uLastCopied) ++ opened n := by
    have hcopied := h.copied
    conv_lhs => rw [← take_append_drop (i - (opened n).length - s.uLastCopied) (sFormat.drop s.uLastCopied)]
    rw [drop_drop, show s.uLastCopied + (i - (opened n).length - s.uLastCopied) = i - (opened n).length by omega, hitem]
  rw [h.text, append_assoc, ← hlast, Scanner.handedOn]
  split_ifs with h0
  · rfl
  · rw [not_not] at h0
    rw [h.nothing h0, h0]
    rfl

theorem take_more {u : ℕ} {w rest : CString} (hu : u ≤ i) (h : sFormat.drop i = w ++ rest) :
    (sFormat.drop u).take (i + w.length - u) = (sFormat.drop u).take (i - u) ++ w := by
  rw [show i + w.length - u = (i - u) + w.length by omega, take_add, drop_drop, show u + (i - u) = i by omega, h,
    take_left]

variable {c : UInt8} {rest : CString} (hi : sFormat.drop i = c :: rest)
include hi

theorem drop_next : sFormat.drop (i + 1) = rest := by
  rw [← drop_drop, hi]
  rfl

theorem Reading.letter (h : Reading sFormat s i none out) : Reading sFormat s (i + 1) none (out ++ [c]) where
  mode := h.mode
  digits := nofun
  copied := h.copied.trans (Nat.le_succ i)
  item := rfl
  text := by
    have hmore := take_more (w := [c]) h.copied hi
    rw [h.text, append_assoc]
    exact congrArg (s.sFormat2 ++ ·) hmore.symm
  nothing := h.nothing

theorem Reading.percent (h : Reading sFormat s i none out) (hc : c = ch '%') :
    Reading sFormat { s with uFormatStart := i, bInFormat := true, iDigits := 3 } (i + 1) (some []) out where
  mode := rfl
  digits := by
    rintro d ⟨⟩
    exact ⟨rfl, rfl⟩
  copied := Nat.succ_le_succ h.copied
  item := by
    rw [drop_next hi]
    change sFormat.drop i = ch '%' :: rest
    rw [hi, hc]
  text := h.text
  nothing := h.nothing

variable {w : CString}

theorem Reading.digit (h : Reading sFormat s i (some w) out) :
    Reading sFormat { s with iDigits := c.toNat - (ch '0').toNat } (i + 1) (some (w ++ [c])) out where
  mode := h.mode
  digits := by
    rintro d ⟨⟩
    obtain ⟨hstart, -⟩ := h.digits w rfl
    rw [length_append, length_singleton, getLast?_concat]
    exact ⟨by rw [← hstart]; rfl, rfl⟩
  copied := by
    have hcopied := h.copied
    simp only [opened, length_cons, length_append, length_nil] at hcopied ⊢
    omega
  item := by
    have hitem := h.item
    have hlen : (opened (some (w ++ [c]))).length = (opened (some w)).length + 1 := by
      simp only [opened, length_cons, length_append, length_nil]
    rw [hlen, Nat.add_sub_add_right, hitem, hi, drop_next hi, opened, opened]
    simp only [cons_append, append_assoc, nil_append]
  text := by
    have hlen : (opened (some (w ++ [c]))).length = (opened (some w)).length + 1 := by
      simp only [opened, length_cons, length_append, length_nil]
    rw [hlen, Nat.add_sub_add_right]
    exact h.text
  nothing := h.nothing

omit hi in
theorem Reading.fraction (h : Reading sFormat s i (some w) out) (sVal : CString) : Reading sFormat
    { s with
      sFormat2 := s.sFormat2 ++ (sFormat.drop s.uLastCopied).take (s.uFormatStart - s.uLastCopied) ++ sVal
      uLastCopied := i + 1
      bInFormat := false } (i + 1) none (out ++ sVal) where
  mode := rfl
  digits := nofun
  copied := le_rfl
  item := rfl
  text := by
    obtain ⟨hstart, -⟩ := h.digits w rfl
    have hplace : i - (opened (some w)).length = s.uFormatStart := by
      rw [opened, length_cons]
      omega
    rw [h.text, hplace]
    simp only [opened, length_nil, Nat.sub_zero, Nat.sub_self, take_zero, append_nil]
  nothing := nofun

theorem Reading.other (h : Reading sFormat s i (some w) out) :
    Reading sFormat { s with bInFormat := false } (i + 1) none (out ++ (Item.conversion w c).text) where
  mode := rfl
  digits := nofun
  copied := by
    have hcopied := h.copied
    simp only [opened, length_nil] at hcopied ⊢
    omega
  item := rfl
  text := by
    have hcopied := h.copied
    have hle : (opened (some w)).length ≤ i := by omega
    have hitem := h.item
    rw [hi, ← singleton_append, ← append_assoc] at hitem
    have hmore := take_more (show s.uLastCopied ≤ i - (opened (some w)).length by omega) hitem
    rw [h.text, append_assoc, ← show opened (some w) ++ [c] = (Item.conversion w c).text from rfl, ← hmore,
      length_append, length_singleton]
    have hend : i - (opened (some w)).length + ((opened (some w)).length + 1) - s.uLastCopied =
        i + 1 - (opened none).length - s.uLastCopied := by
      rw [opened, length_nil]
      omega
    rw [hend]
  nothing := h.nothing

omit hi

theorem step_outside (h : s.bInFormat = false) : step tv_usec sFormat i c s =
    .ok (if c = ch '%' then { s with uFormatStart := i, bInFormat := true, iDigits := 3 } else s) := by
  rw [step, h]
  rfl

theorem step_digit (h : s.bInFormat = true) (hc : isdigit c = true) :
    step tv_usec sFormat i c s = .ok { s with iDigits := c.toNat - (ch '0').toNat } := by
  rw [step, h, if_neg (by decide), if_pos hc]

theorem step_conversion (h : s.bInFormat = true) (hc : isdigit c = false) : step tv_usec sFormat i c s =
    if c = ch 'f' then do
      let sVal ← fractionText tv_usec s.iDigits
      return { s with
        sFormat2 := s.sFormat2 ++ (sFormat.drop s.uLastCopied).take (s.uFormatStart - s.uLastCopied) ++ sVal
        uLastCopied := i + 1
        bInFormat := false }
    else .ok { s with bInFormat := false } := by
  rw [step, h, if_neg (by decide), if_neg (by rw [hc]; exact Bool.false_ne_true)]

theorem formatLoop_eq (rest : CString) (h : Reading sFormat s i n out) (hi : sFormat.drop i = rest) :
    (formatLoop tv_usec sFormat i rest s).map (Scanner.handedOn · sFormat) =
      (itemsFrom n rest).foldlM (append tv_usec) out := by
  induction rest generalizing s i n out with
  | nil =>
    rw [formatLoop]
    change Except.ok (s.handedOn sFormat) = _
    rw [h.handedOn hi]
    cases n with
    | none => exact congrArg Except.ok (append_nil out)
    | some w => rfl
  | cons c rest ih =>
    have hnext := drop_next hi
    cases n with
    | none =>
      rw [formatLoop, step_outside h.mode, itemsFrom]
      by_cases hc : c = ch '%'
      · rw [if_pos hc, if_pos hc]
        exact ih (h.percent hi hc) hnext
      · rw [if_neg hc, if_neg hc]
        exact ih (h.letter hi) hnext
    | some w =>
      cases hdigit : isdigit c with
      | true =>
        rw [formatLoop, step_digit h.mode hdigit, itemsFrom, if_pos hdigit]
        exact ih (h.digit hi) hnext
      | false =>
        rw [formatLoop, step_conversion h.mode hdigit, itemsFrom, hdigit, if_neg Bool.false_ne_true, foldlM_cons, append,
          made]
        by_cases hc : c = ch 'f'
        · rw [if_pos hc, if_pos hc, ← (h.digits w rfl).2]
          cases fractionText tv_usec s.iDigits with
          | error e => rfl
          | ok sVal => exact ih (h.fraction sVal) hnext
        · rw [if_neg hc, if_neg hc]
          exact ih (h.other hi) hnext

/-! ## Which formats are handled as they say -/

def Item.Digits : Item → Prop
  | .conversion n _ => ∀ d ∈ n, isdigit d = true
  | _ => True

theorem digits_itemsFrom (s : CString) : ∀ n : Option CString, (∀ w, n = some w → ∀ d ∈ w, isdigit d = true) →
    ∀ x ∈ itemsFrom n s, x.Digits := by
  induction s with
  | nil =>
    intro n hn x hx
    cases n with
    | none => exact nomatch hx
    | some w =>
      obtain rfl := mem_singleton.1 hx
      trivial
  | cons c s ih =>
    intro n hn
    cases n with
    | none =>
      rw [itemsFrom]
      split_ifs
      · exact ih _ (by rintro w ⟨⟩ d hd; exact nomatch hd)
      · exact forall_mem_cons.2 ⟨trivial, ih none nofun⟩
    | some w =>
      rw [itemsFrom]
      split_ifs with hc
      · refine ih _ ?_
        rintro _ ⟨⟩ d hd
        rcases mem_append.1 hd with hd | hd
        · exact hn w rfl d hd
        · rw [mem_singleton.1 hd]
          exact hc
      · exact forall_mem_cons.2 ⟨hn w rfl, ih none nofun⟩

theorem digits_items (sFormat : CString) : ∀ x ∈ items sFormat, x.Digits := digits_itemsFrom sFormat none nofun

theorem digit_value {d : UInt8} (h : isdigit d = true) :
    d.toNat - (ch '0').toNat ≤ 9 ∧ (d.toNat - (ch '0').toNat = 0 ↔ d = ch '0') := by
  have h48 : (ch '0').toNat = 48 := rfl
  have h57 : (ch '9').toNat = 57 := rfl
  simp only [isdigit, Bool.and_eq_true, decide_eq_true_eq, UInt8.le_iff_toNat_le] at h
  rw [← UInt8.toNat_inj]
  omega

theorem digit_ne_percent (n : ℕ) (h : n < 10) : digit n ≠ ch '%' := by
  revert n
  decide

variable (husec : tv_usec < 1000000)
include husec

theorem made_handled {x : Item} (hdigits : x.Digits) (h : x.Handled) : made tv_usec x = .ok (x.wanted tv_usec) := by
  cases x with
  | letter c => rfl
  | unfinished n => rfl
  | conversion n c =>
    rw [made]
    by_cases hc : c = ch 'f'
    · subst hc
      rw [if_pos rfl]
      obtain rfl | ⟨d, rfl, hd⟩ := h rfl
      · exact fractionText_eq husec (by decide)
      · obtain ⟨h9, h0⟩ := digit_value (hdigits d mem_cons_self)
        have hfraction := fractionText_eq husec h9
        rw [if_neg fun hzero => hd (h0.1 hzero)] at hfraction
        exact hfraction
    · have hnone : Item.precision (.conversion n c) = none := by
        unfold Item.precision
        split <;> first | rfl | exact if_neg (by rintro rfl; simp_all)
      rw [if_neg hc, Item.wanted, hnone]
      rfl

theorem made_unhandled {x : Item} (hdigits : x.Digits) (h : ¬x.Handled) :
    (∃ e, made tv_usec x = .error e) ∨
      ∃ d w t, made tv_usec x = .ok (d :: w) ∧ x.wanted tv_usec = ch '%' :: t ∧ d ≠ ch '%' := by
  cases x with
  | letter c => exact absurd trivial h
  | unfinished n => exact absurd trivial h
  | conversion n c =>
    obtain ⟨rfl, hno⟩ := Classical.not_imp.1 h
    obtain ⟨hne, hone⟩ := not_or.1 hno
    obtain ⟨d, hd⟩ := Option.ne_none_iff_exists'.1 (fun hnone => hne (getLast?_eq_none_iff.1 hnone))
    obtain ⟨h9, h0⟩ := digit_value (hdigits d (mem_of_getLast? hd))
    have hmade : made tv_usec (.conversion n (ch 'f')) = fractionText tv_usec (d.toNat - (ch '0').toNat) := by
      rw [made, if_pos rfl, hd]
      rfl
    rw [hmade, fractionText_eq husec h9]
    split_ifs with hzero
    · exact .inl ⟨_, rfl⟩
    · right
      obtain ⟨N, hN⟩ := Nat.exists_eq_succ_of_ne_zero hzero
      have hnone : Item.precision (.conversion n (ch 'f')) = none := by
        rcases n with - | ⟨e, - | ⟨e', n⟩⟩
        · exact absurd rfl hne
        · obtain rfl : e = d := Option.some.inj hd
          exact absurd ⟨e, rfl, fun he => hzero (h0.2 he)⟩ hone
        · rfl
      rw [hN, decimals, range_succ_eq_map, map_cons, Item.wanted, hnone]
      exact ⟨_, _, _, rfl, rfl, digit_ne_percent _ (Nat.mod_lt _ (by decide))⟩

omit husec

theorem prefix_append {xs : List Item} {r : CString} (h : xs.foldlM (append tv_usec) out = .ok r) : out <+: r := by
  induction xs generalizing out with
  | nil =>
    cases h
    exact prefix_rfl
  | cons x xs ih =>
    rw [foldlM_cons, append] at h
    cases hmade : made tv_usec x with
    | error e =>
      rw [hmade] at h
      cases h
    | ok w =>
      rw [hmade] at h
      exact (prefix_append out w).trans (ih h)

include husec

theorem foldlM_append_iff (xs : List Item) (hdigits : ∀ x ∈ xs, x.Digits) (out : CString) :
    xs.foldlM (append tv_usec) out = .ok (out ++ xs.flatMap (Item.wanted tv_usec)) ↔ ∀ x ∈ xs, x.Handled := by
  induction xs generalizing out with
  | nil => exact iff_of_true (congrArg Except.ok (append_nil out).symm) (forall_mem_nil _)
  | cons x xs ih =>
    obtain ⟨hx, hxs⟩ := forall_mem_cons.1 hdigits
    rw [forall_mem_cons, flatMap_cons, ← append_assoc, foldlM_cons, append]
    by_cases h : x.Handled
    · rw [made_handled husec hx h, and_iff_right h]
      exact ih hxs _
    · refine iff_of_false (fun hrun => ?_) (fun hall => h hall.1)
      obtain ⟨e, he⟩ | ⟨d, w, t, hmade, hwanted, hd⟩ := made_unhandled husec hx h
      · rw [he] at hrun
        cases hrun
      · rw [hmade] at hrun
        have hprefix := prefix_append hrun
        rw [hwanted, append_assoc, prefix_append_right_inj, cons_append, cons_prefix_cons] at hprefix
        exact hd hprefix.1

omit husec

/-- **The formats that are handled as they say:** every `%f` and `%Nf` gives its decimals, and all else goes to `strftime`. -/
theorem formatTime_iff (tv : Timeval) (sFormat : CString) :
    (∀ strftime : ℤ → CString → CString, formatTime strftime tv sFormat =
      .ok (strftime tv.tv_sec ((items sFormat).flatMap (Item.wanted tv.tv_usec)))) ↔
      ∀ x ∈ items sFormat, x.Handled := by
  have hrun : (formatLoop tv.tv_usec sFormat 0 sFormat .start).map (Scanner.handedOn · sFormat) =
      (itemsFrom none sFormat).foldlM (append tv.tv_usec) [] := formatLoop_eq sFormat (reading_start sFormat) rfl
  rw [← foldlM_append_iff tv.usec_lt _ (digits_items sFormat) []]
  rw [nil_append, items, ← hrun]
  have hform (strftime : ℤ → CString → CString) : formatTime strftime tv sFormat =
      ((formatLoop tv.tv_usec sFormat 0 sFormat .start).map (Scanner.handedOn · sFormat)).map (strftime tv.tv_sec) := by
    rw [formatTime]
    cases formatLoop tv.tv_usec sFormat 0 sFormat .start <;> rfl
  constructor
  · intro h
    have hid := h fun _ sFormat2 => sFormat2
    rw [hform] at hid
    cases hloop : (formatLoop tv.tv_usec sFormat 0 sFormat .start).map (Scanner.handedOn · sFormat) with
    | error e =>
      rw [hloop] at hid
      cases hid
    | ok sFormat2 =>
      rw [hloop] at hid
      exact hid
  · intro h strftime
    rw [hform, h]
    rfl

/-- **Without digits:** the number of zeros wraps around, and `FormatTime` throws. -/
theorem formatTime_zero : formatTime (fun _ sFormat2 => sFormat2) ⟨42, 123456, by decide⟩ (lit "%0f") = .error .length_error ∧
    ¬∀ strftime : ℤ → CString → CString, formatTime strftime ⟨42, 123456, by decide⟩ (lit "%0f") =
      .ok (strftime 42 ((items (lit "%0f")).flatMap (Item.wanted 123456))) := by
  constructor
  · decide +kernel
  · intro h
    have hid := h fun _ sFormat2 => sFormat2
    revert hid
    decide +kernel

/-- the formats of the tests -/
example : (items (lit "%s.%6f")).flatMap (Item.wanted 12345) = lit "%s.012345" ∧
    (items (lit "%%f")).flatMap (Item.wanted 123456) = lit "%%f" ∧
    (items (lit "a%fb")).flatMap (Item.wanted 123456) = lit "a123b" := by decide +kernel

end ZNC.FormatTime
