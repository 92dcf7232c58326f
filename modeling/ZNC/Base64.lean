/-
Base64: `CString::Base64Encode` and `Base64Decode` of `src/ZNCString.cpp`, without line wrapping.

Three bytes become four letters of six bits each; what is missing in the last group is written as '='. The decoder takes
anything: a byte that is no letter counts as 0xff, and the text may end in the middle of a group.

Results:
- `base64Decode_encode`: an encoded text is decoded again;
- `length_base64Encode`, `mem_base64Encode`: how long an encoded text is, and what it is made of.
-/
import ZNC.CString

namespace ZNC.CString

def b64table : CString := lit "ABCDEFGHIJKLMNOPQRSTUVWXYZabcdefghijklmnopqrstuvwxyz0123456789+/"

/-- `b64table[k]` -/
def b64 (k : UInt8) : UInt8 := b64table.getD k.toNat 0

def base64_table (c : UInt8) : UInt8 :=
  if isupper c then c - ch 'A'
  else if islower c then c - ch 'a' + 26
  else if isdigit c then c - ch '0' + 52
  else if c = ch '+' then 62
  else if c = ch '/' then 63
  else 0xff

def base64Encode : CString → CString
  | [] => []
  -- the byte behind the last one is the terminator
  | [a] => [b64 (a >>> 2), b64 ((a <<< 4 ||| (0 : UInt8) >>> 4) &&& 0x3f), ch '=', ch '=']
  | [a, b] => [b64 (a >>> 2), b64 ((a <<< 4 ||| b >>> 4) &&& 0x3f), b64 ((b <<< 2) &&& 0x3f), ch '=']
  | a :: b :: c :: l =>
    b64 (a >>> 2) :: b64 ((a <<< 4 ||| b >>> 4) &&& 0x3f) :: b64 ((b <<< 2 ||| c >>> 6) &&& 0x3f) :: b64 (c &&& 0x3f) ::
      base64Encode l

/-- the bytes of the letters `c` and `c1`, the first two of a group, of its middle two, and of its last two -/
def firstByte (c c1 : UInt8) : UInt8 := (base64_table c <<< (2 : UInt8)) ||| ((base64_table c1 >>> (4 : UInt8)) &&& 0x3)

def secondByte (c1 c : UInt8) : UInt8 :=
  ((base64_table c1 <<< (4 : UInt8)) &&& 0xf0) ||| ((base64_table c >>> (2 : UInt8)) &&& 0xf)

def thirdByte (c c2 : UInt8) : UInt8 := ((base64_table c <<< (6 : UInt8)) &&& 0xc0) ||| base64_table c2

def decodeLoop : CString → CString
  | [] => []
  -- the second letter is the terminator
  | [a] => [firstByte a 0]
  | [a, b] => [firstByte a b]
  | [a, b, x] => if x = ch '=' then [firstByte a b] else [firstByte a b, secondByte b x]
  | a :: b :: x :: y :: l =>
    if x = ch '=' then [firstByte a b]
    else if y = ch '=' then [firstByte a b, secondByte b x]
    else firstByte a b :: secondByte b x :: thirdByte x y :: decodeLoop l

def base64Decode (s : CString) : CString := decodeLoop ((s.remove_n (ch '\r')).remove_n (ch '\n'))

/-! ## Letters -/

/-- the letters of encoded texts, and the padding -/
def IsBase64 (c : UInt8) : Prop := c ∈ b64table ∨ c = ch '='

theorem base64_table_b64 {k : UInt8} (hk : k < 64) : base64_table (b64 k) = k ∧ b64 k ≠ ch '=' ∧ b64 k ∈ b64table := by
  have hall : ((List.range 64).all fun n => base64_table (b64 (UInt8.ofNat n)) = UInt8.ofNat n ∧
      b64 (UInt8.ofNat n) ≠ ch '=' ∧ b64 (UInt8.ofNat n) ∈ b64table) = true := by decide
  have hmem : k.toNat ∈ List.range 64 := List.mem_range.2 (UInt8.lt_iff_toNat_lt.1 hk)
  have h := of_decide_eq_true (List.all_eq_true.1 hall k.toNat hmem)
  rwa [UInt8.ofNat_toNat] at h

theorem and_lt (k : UInt8) : k &&& 0x3f < 64 := by
  rw [UInt8.lt_iff_toNat_lt, UInt8.toNat_and]
  exact Nat.lt_of_le_of_lt Nat.and_le_right (by decide)

theorem shiftRight_lt (a : UInt8) : a >>> 2 < 64 := by
  have ha := a.toNat_lt
  rw [UInt8.lt_iff_toNat_lt, UInt8.toNat_shiftRight]
  have h2 : (2 : UInt8).toNat % 8 = 2 := rfl
  have h64 : (64 : UInt8).toNat = 64 := rfl
  rw [h2, h64, Nat.shiftRight_eq_div_pow]
  omega

/-! ## Groups -/

theorem firstByte_b64 (a b : UInt8) : firstByte (b64 (a >>> 2)) (b64 ((a <<< 4 ||| b >>> 4) &&& 0x3f)) = a := by
  rw [firstByte, (base64_table_b64 (shiftRight_lt a)).1, (base64_table_b64 (and_lt _)).1]
  apply UInt8.toBitVec_inj.1
  apply BitVec.eq_of_getElem_eq
  intro i hi
  interval_cases i <;> simp

theorem secondByte_b64 (a b c : UInt8) :
    secondByte (b64 ((a <<< 4 ||| b >>> 4) &&& 0x3f)) (b64 ((b <<< 2 ||| c >>> 6) &&& 0x3f)) = b := by
  rw [secondByte, (base64_table_b64 (and_lt _)).1, (base64_table_b64 (and_lt _)).1]
  apply UInt8.toBitVec_inj.1
  apply BitVec.eq_of_getElem_eq
  intro i hi
  interval_cases i <;> simp

theorem thirdByte_b64 (b c : UInt8) : thirdByte (b64 ((b <<< 2 ||| c >>> 6) &&& 0x3f)) (b64 (c &&& 0x3f)) = c := by
  rw [thirdByte, (base64_table_b64 (and_lt _)).1, (base64_table_b64 (and_lt _)).1]
  apply UInt8.toBitVec_inj.1
  apply BitVec.eq_of_getElem_eq
  intro i hi
  interval_cases i <;> simp

variable (s : CString)

/-- **A text is decoded again**, group by group. -/
theorem decodeLoop_encode : decodeLoop (base64Encode s) = s := by
  induction s using base64Encode.induct with
  | case1 => rfl
  | case2 a =>
    rw [base64Encode, decodeLoop, if_pos rfl, firstByte_b64]
  | case3 a b =>
    have hpad : (b <<< (2 : UInt8)) &&& 0x3f = (b <<< (2 : UInt8) ||| (0 : UInt8) >>> (6 : UInt8)) &&& 0x3f := by simp
    have hne := (base64_table_b64 (and_lt (b <<< 2))).2.1
    rw [base64Encode, decodeLoop, if_neg hne, if_pos rfl, firstByte_b64, hpad, secondByte_b64]
  | case4 a b c l ih =>
    have hne := (base64_table_b64 (and_lt (b <<< 2 ||| c >>> 6))).2.1
    have hne' := (base64_table_b64 (and_lt c)).2.1
    rw [base64Encode, decodeLoop, if_neg hne, if_neg hne', firstByte_b64, secondByte_b64, thirdByte_b64, ih]

theorem length_base64Encode : (base64Encode s).length = 4 * ((s.length + 2) / 3) := by
  induction s using base64Encode.induct with
  | case1 => simp [base64Encode]
  | case2 a => simp [base64Encode]
  | case3 a b => simp [base64Encode]
  | case4 a b c l ih =>
    simp only [base64Encode, List.length_cons, ih]
    omega

theorem mem_base64Encode : ∀ c ∈ base64Encode s, IsBase64 c := by
  have hb64 : ∀ k < 64, IsBase64 (b64 k) := fun k hk => .inl (base64_table_b64 hk).2.2
  have hpad : IsBase64 (ch '=') := .inr rfl
  induction s using base64Encode.induct with
  | case1 => simp [base64Encode]
  | case2 a => simp [base64Encode, hb64 _ (shiftRight_lt a), hb64 _ (and_lt _), hpad]
  | case3 a b => simp [base64Encode, hb64 _ (shiftRight_lt a), hb64 _ (and_lt _), hpad]
  | case4 a b c l ih => simpa [base64Encode, hb64 _ (shiftRight_lt a), hb64 _ (and_lt _)] using ih

theorem IsBase64.ne {c : UInt8} (h : IsBase64 c) : c ≠ 0 ∧ c ≠ ch '\r' ∧ c ≠ ch '\n' ∧ c ≠ ch '*' ∧ c ≠ ch ' ' := by
  have hall : (b64table.all fun c => c ≠ 0 ∧ c ≠ ch '\r' ∧ c ≠ ch '\n' ∧ c ≠ ch '*' ∧ c ≠ ch ' ') = true := by decide
  rcases h with h | rfl
  · exact of_decide_eq_true (List.all_eq_true.1 hall c h)
  · decide

theorem remove_n_eq_self {s : CString} {c : UInt8} (h0 : (0 : UInt8) ∉ s) (hc : c ∉ s) : s.remove_n c = s := by
  rw [remove_n, cStr_eq_self h0, List.filter_eq_self]
  intro b hb
  exact decide_eq_true fun h => hc (h ▸ hb)

/-- **Base64 round trip.** -/
theorem base64Decode_encode : base64Decode (base64Encode s) = s := by
  have hne := fun c hc => (mem_base64Encode s c hc).ne
  have h0 : (0 : UInt8) ∉ base64Encode s := fun h => (hne _ h).1 rfl
  have hr : ch '\r' ∉ base64Encode s := fun h => (hne _ h).2.1 rfl
  have hn : ch '\n' ∉ base64Encode s := fun h => (hne _ h).2.2.1 rfl
  rw [base64Decode, remove_n_eq_self h0 hr, remove_n_eq_self h0 hn, decodeLoop_encode]

theorem length_decodeLoop : 4 * (decodeLoop s).length ≤ 3 * s.length + 1 := by
  induction s using decodeLoop.induct with
  | case1 => simp [decodeLoop]
  | case2 a => simp [decodeLoop]
  | case3 a b => simp [decodeLoop]
  | case4 a b => simp [decodeLoop]
  | case5 a b x hx => simp [decodeLoop, hx]
  | case6 a b y l => simp [decodeLoop]
  | case7 a b x l hx => simp [decodeLoop, hx]; omega
  | case8 a b x y l hx hy ih =>
    rw [decodeLoop, if_neg hx, if_neg hy]
    simp only [List.length_cons]
    omega

theorem length_base64Decode : 4 * (base64Decode s).length ≤ 3 * s.length + 1 := by
  have hremove (t : CString) (c : UInt8) : (t.remove_n c).length ≤ t.length :=
    (List.length_filter_le _ _).trans (List.takeWhile_sublist _).length_le
  have hle := (hremove (s.remove_n (ch '\r')) (ch '\n')).trans (hremove s (ch '\r'))
  have hdecode := length_decodeLoop ((s.remove_n (ch '\r')).remove_n (ch '\n'))
  rw [base64Decode]
  omega

end ZNC.CString
