/-
Slices of the parameters of a message: `CMessage::GetParamsSplit` and `GetParamsColon` of `src/Message.cpp`, for every index and
length.

Both cut the length down to what is left behind the index, in 64 bits. `GetParamsSplit` asks first whether the index is in the
vector; `GetParamsColon` does not, and behind the end its difference wraps, so that the length stays as it is.

Results:
- `getParamsSplit_eq`: the parameters from the index up to the end of the slice or of the vector;
- `getParamsColon_slice`: the same parameters, with the colon of the last one;
- `params_slices`: the two of them together.
-/
import ZNC.MessageLine

namespace ZNC.CMessage

open CString List

def getParamsSplit (m : CMessage) (uIdx uLen : UInt32) : VCString :=
  let size := UInt64.ofNat m.vsParams.length
  if m.vsParams = [] || uLen = 0 || uIdx.toUInt64 ≥ size then []
  else
    let uLen := if uLen.toUInt64 > size - uIdx.toUInt64 - 1 then (size - uIdx.toUInt64).toUInt32 else uLen
    (m.vsParams.drop uIdx.toNat).take uLen.toNat

/-- a slice as it is printed: the last parameter of the message gets its colon -/
def sliceShown (m : CMessage) (uIdx : UInt32) (vsParams : VCString) : VCString :=
  if uIdx.toNat + vsParams.length = m.vsParams.length then showParams m.bColon vsParams else vsParams

/-! ## The length of a slice -/

theorem toNat_size {n : ℕ} (hn : n < 2 ^ 64) : (UInt64.ofNat n).toNat = n := by
  rw [UInt64.toNat_ofNat', Nat.mod_eq_of_lt hn]

theorem toNat_clamp {n : ℕ} (hn : n < 2 ^ 64) {uIdx : UInt32} (hidx : uIdx.toNat < n) (uLen : UInt32) :
    (if uLen.toUInt64 > UInt64.ofNat n - uIdx.toUInt64 - 1 then (UInt64.ofNat n - uIdx.toUInt64).toUInt32 else uLen).toNat =
      min uLen.toNat (n - uIdx.toNat) := by
  have hle : uIdx.toUInt64 ≤ UInt64.ofNat n := by
    rw [UInt64.le_iff_toNat_le, toNat_size hn, UInt32.toNat_toUInt64]
    exact hidx.le
  have hsub : (UInt64.ofNat n - uIdx.toUInt64).toNat = n - uIdx.toNat := by
    rw [UInt64.toNat_sub_of_le _ _ hle, toNat_size hn, UInt32.toNat_toUInt64]
  have hone : (1 : UInt64) ≤ UInt64.ofNat n - uIdx.toUInt64 := by
    rw [UInt64.le_iff_toNat_le, hsub, UInt64.toNat_one]
    omega
  have hlast : (UInt64.ofNat n - uIdx.toUInt64 - 1).toNat = n - uIdx.toNat - 1 := by
    rw [UInt64.toNat_sub_of_le _ _ hone, hsub, UInt64.toNat_one]
  have hlen := uLen.toNat_lt
  by_cases h : uLen.toUInt64 > UInt64.ofNat n - uIdx.toUInt64 - 1
  · have hgt : n - uIdx.toNat - 1 < uLen.toNat := by
      rwa [gt_iff_lt, UInt64.lt_iff_toNat_lt, hlast, UInt32.toNat_toUInt64] at h
    rw [if_pos h, UInt64.toNat_toUInt32, hsub, Nat.mod_eq_of_lt (by omega)]
    omega
  · have hle' : ¬n - uIdx.toNat - 1 < uLen.toNat := by
      rwa [gt_iff_lt, UInt64.lt_iff_toNat_lt, hlast, UInt32.toNat_toUInt64] at h
    rw [if_neg h]
    omega

theorem clamp_behind {n : ℕ} {uIdx : UInt32} (hidx : n ≤ uIdx.toNat) (uLen : UInt32) :
    (if uLen.toUInt64 > UInt64.ofNat n - uIdx.toUInt64 - 1 then (UInt64.ofNat n - uIdx.toUInt64).toUInt32 else uLen) = uLen := by
  have hidx' := uIdx.toNat_lt
  have hlen := uLen.toNat_lt
  refine if_neg ?_
  rw [gt_iff_lt, UInt64.lt_iff_toNat_lt, UInt64.toNat_sub, UInt64.toNat_sub, toNat_size (by omega),
    UInt32.toNat_toUInt64, UInt32.toNat_toUInt64, UInt64.toNat_one]
  omega

variable (m : CMessage)

theorem getParamsSplit_eq (uIdx uLen : UInt32) (hn : m.vsParams.length < 2 ^ 64) :
    m.getParamsSplit uIdx uLen =
      (m.vsParams.take (min (uIdx.toNat + uLen.toNat) m.vsParams.length)).drop uIdx.toNat := by
  have hge : uIdx.toUInt64 ≥ UInt64.ofNat m.vsParams.length ↔ m.vsParams.length ≤ uIdx.toNat := by
    rw [ge_iff_le, UInt64.le_iff_toNat_le, toNat_size hn, UInt32.toNat_toUInt64]
  by_cases hidx : m.vsParams.length ≤ uIdx.toNat
  · rw [getParamsSplit, if_pos (by simp [hge.2 hidx]), drop_eq_nil_of_le]
    rw [length_take]
    omega
  · by_cases hlen : uLen = 0
    · rw [getParamsSplit, if_pos (by simp [hlen]), drop_eq_nil_of_le]
      rw [length_take, hlen, UInt32.toNat_zero]
      omega
    · have hne : m.vsParams ≠ [] := by
        intro h
        rw [h, length_nil] at hidx
        exact hidx (Nat.zero_le _)
      rw [getParamsSplit, if_neg (by simpa [hlen, hne] using fun h => hidx (hge.1 h)), drop_take]
      simp only [toNat_clamp hn (not_le.1 hidx)]
      congr 1
      omega

theorem length_getParamsSplit (uIdx uLen : UInt32) (hn : m.vsParams.length < 2 ^ 64) :
    (m.getParamsSplit uIdx uLen).length = min uLen.toNat (m.vsParams.length - uIdx.toNat) := by
  rw [getParamsSplit_eq m uIdx uLen hn, length_drop, length_take]
  omega

/-! ## The loop of `GetParamsColon` -/

theorem paramsFrom_inner (hn : m.vsParams.length < 2 ^ 32) {uEnd : UInt32} (hend : uEnd.toNat < m.vsParams.length) :
    ∀ (k : ℕ) (i : UInt32), i.toNat + k = uEnd.toNat →
      m.paramsFrom (UInt32.ofNat m.vsParams.length) uEnd i = some ((m.vsParams.drop i.toNat).take k) := by
  have hsize : (UInt32.ofNat m.vsParams.length).toNat = m.vsParams.length := by
    rw [UInt32.toNat_ofNat', Nat.mod_eq_of_lt hn]
  have hone : (1 : UInt32) ≤ UInt32.ofNat m.vsParams.length := by
    rw [UInt32.le_iff_toNat_le, hsize, UInt32.toNat_one]
    omega
  intro k
  induction k with
  | zero =>
    intro i hi
    rw [paramsFrom, dif_neg (by rw [UInt32.lt_iff_toNat_lt]; omega), take_zero]
  | succ k ih =>
    intro i hi
    have hlt : i.toNat < m.vsParams.length := by omega
    have hnext : (i + 1).toNat = i.toNat + 1 := by
      rw [UInt32.toNat_add, UInt32.toNat_one, Nat.mod_eq_of_lt (by omega)]
    have hlast : i ≠ UInt32.ofNat m.vsParams.length - 1 := by
      rw [ne_eq, ← UInt32.toNat_inj, UInt32.toNat_sub_of_le _ _ hone, hsize, UInt32.toNat_one]
      omega
    rw [paramsFrom, dif_pos (by rw [UInt32.lt_iff_toNat_lt]; omega), getElem?_eq_getElem hlt, ih (i + 1) (by omega),
      hnext, drop_eq_getElem_cons hlt, take_succ_cons]
    simp [hlast]

theorem toUInt32_size {n : ℕ} (hn : n < 2 ^ 32) : (UInt64.ofNat n).toUInt32 = UInt32.ofNat n := by
  rw [← UInt32.toNat_inj, UInt64.toNat_toUInt32, toNat_size (by omega), UInt32.toNat_ofNat']

theorem getParamsColon_slice (hn : m.vsParams.length < 2 ^ 32) {uIdx : UInt32} (hidx : uIdx.toNat < m.vsParams.length)
    (uLen : UInt32) :
    m.getParamsColon uIdx uLen = some ((lit " ").join (m.sliceShown uIdx (m.getParamsSplit uIdx uLen))) := by
  have hn64 : m.vsParams.length < 2 ^ 64 := by omega
  have hsplit := getParamsSplit_eq m uIdx uLen hn64
  have hlength := length_getParamsSplit m uIdx uLen hn64
  have hne : m.vsParams ≠ [] := by
    intro h
    rw [h, length_nil] at hidx
    exact absurd hidx (Nat.not_lt_zero _)
  by_cases hlen : uLen = 0
  · rw [hlen, UInt32.toNat_zero, Nat.zero_min, length_eq_zero_iff] at hlength
    rw [getParamsColon, if_pos (by simp [hlen]), hlen, hlength, sliceShown, length_nil, if_neg (by omega)]
    rfl
  · have hclamp := toNat_clamp hn64 hidx uLen
    rw [getParamsColon, if_neg (by simp [hlen, hne])]
    simp only [toUInt32_size hn]
    generalize (if uLen.toUInt64 > UInt64.ofNat m.vsParams.length - uIdx.toUInt64 - 1 then
      (UInt64.ofNat m.vsParams.length - uIdx.toUInt64).toUInt32 else uLen) = uCut at hclamp ⊢
    have hend : (uIdx + uCut).toNat = uIdx.toNat + (m.getParamsSplit uIdx uLen).length := by
      rw [UInt32.toNat_add, Nat.mod_eq_of_lt (by omega), hclamp, hlength]
    have htake : (m.vsParams.drop uIdx.toNat).take (m.getParamsSplit uIdx uLen).length =
      m.getParamsSplit uIdx uLen := by
      rw [hlength, hsplit, drop_take]
      congr 1
      omega
    by_cases hlast : uIdx.toNat + (m.getParamsSplit uIdx uLen).length = m.vsParams.length
    · have hsize : uIdx + uCut = UInt32.ofNat m.vsParams.length := by
        rw [← UInt32.toNat_inj, hend, hlast, UInt32.toNat_ofNat', Nat.mod_eq_of_lt hn]
      have hall : (m.vsParams.drop uIdx.toNat).take (m.getParamsSplit uIdx uLen).length = m.vsParams.drop uIdx.toNat :=
        take_of_length_le (by rw [length_drop]; omega)
      rw [hsize, paramsFrom_eq m hn _ uIdx hlast, sliceShown, if_pos hlast, ← htake, hall]
      rfl
    · have hinner : (uIdx + uCut).toNat < m.vsParams.length := by omega
      rw [paramsFrom_inner m hn hinner _ uIdx hend.symm, sliceShown, if_neg hlast, htake]
      rfl

/-- **Behind the end** the loop reads outside the vector, unless the end of the slice wraps. -/
theorem getParamsColon_behind {uIdx uLen : UInt32} (hne : m.vsParams ≠ []) (hlen : uLen ≠ 0)
    (hidx : m.vsParams.length ≤ uIdx.toNat) :
    m.getParamsColon uIdx uLen = if uIdx.toNat + uLen.toNat < 2 ^ 32 then none else some [] := by
  have hlen' := uLen.toNat_lt
  have hidx' := uIdx.toNat_lt
  have hpos : uLen.toNat ≠ 0 := fun h => hlen (UInt32.toNat_inj.1 h)
  rw [getParamsColon, if_neg (by simp [hlen, hne])]
  simp only [clamp_behind hidx]
  rw [paramsFrom]
  by_cases hwrap : uIdx.toNat + uLen.toNat < 2 ^ 32
  · have hgo : uIdx < uIdx + uLen := by
      rw [UInt32.lt_iff_toNat_lt, UInt32.toNat_add, Nat.mod_eq_of_lt hwrap]
      omega
    rw [if_pos hwrap, dif_pos hgo, getElem?_eq_none hidx]
    rfl
  · have hstop : ¬uIdx < uIdx + uLen := by
      rw [UInt32.lt_iff_toNat_lt, UInt32.toNat_add]
      omega
    rw [if_neg hwrap, dif_neg hstop]
    rfl

/-! ## The two functions together -/

/-- the index is in the vector, or `GetParamsColon` does not come to use it -/
def Reads (m : CMessage) (uIdx uLen : UInt32) : Prop :=
  m.vsParams = [] ∨ uLen = 0 ∨ uIdx.toNat < m.vsParams.length ∨ 2 ^ 32 ≤ uIdx.toNat + uLen.toNat

theorem getParamsColon_of_reads {uIdx uLen : UInt32} (hn : m.vsParams.length < 2 ^ 32) (h : m.Reads uIdx uLen) :
    m.getParamsColon uIdx uLen = some ((lit " ").join (m.sliceShown uIdx (m.getParamsSplit uIdx uLen))) := by
  by_cases hidx : uIdx.toNat < m.vsParams.length
  · exact getParamsColon_slice m hn hidx uLen
  · have hnil : m.getParamsSplit uIdx uLen = [] := by
      rw [← length_eq_zero_iff, length_getParamsSplit m uIdx uLen (by omega)]
      omega
    have hshown : m.sliceShown uIdx [] = [] := by rw [sliceShown]; split <;> rfl
    rw [hnil, hshown]
    by_cases hquick : m.vsParams = [] ∨ uLen = 0
    · rw [getParamsColon, if_pos (by simpa using hquick)]
      rfl
    · rw [not_or] at hquick
      rcases h with h | h | h | h
      · exact absurd h hquick.1
      · exact absurd h hquick.2
      · exact absurd h hidx
      · rw [getParamsColon_behind m hquick.1 hquick.2 (not_lt.1 hidx), if_neg (not_lt.2 h)]
        rfl

/-- **Slices of parameters.** `GetParamsSplit` returns the parameters of the slice; `GetParamsColon` prints them, the last one of
the message with its colon, and reads nothing else. -/
theorem params_slices (m : CMessage) (uIdx uLen : UInt32) (hn : m.vsParams.length < 2 ^ 64) :
    m.getParamsSplit uIdx uLen = (m.vsParams.take (min (uIdx.toNat + uLen.toNat) m.vsParams.length)).drop uIdx.toNat ∧
      (m.vsParams.length < 2 ^ 32 → m.Reads uIdx uLen →
        m.getParamsColon uIdx uLen = some ((lit " ").join (m.sliceShown uIdx (m.getParamsSplit uIdx uLen)))) :=
  ⟨getParamsSplit_eq m uIdx uLen hn, getParamsColon_of_reads m⟩

/-- the parameters of `CMD p1 :p2` -/
def sampleColon : CMessage := { blank stoppedClock with vsParams := [lit "p1", lit "p2"], bColon := true }

/-- the last parameter alone, with the largest length there is -/
theorem params_slices_last :
    sampleColon.getParamsSplit 1 0xFFFFFFFF = [lit "p2"] ∧
      sampleColon.getParamsColon 1 0xFFFFFFFF = some (lit ":p2") := by
  have hreads : sampleColon.Reads 1 0xFFFFFFFF := .inr (.inr (.inl (by decide)))
  have h := params_slices sampleColon 1 0xFFFFFFFF (by decide)
  have hsplit : sampleColon.getParamsSplit 1 0xFFFFFFFF = [lit "p2"] := by
    rw [h.1]
    decide
  refine ⟨hsplit, ?_⟩
  rw [h.2 (by decide) hreads, hsplit]
  decide

/-- a colon that was there is kept, a slice behind the end is read, and 2^32 parameters are not all printed -/
theorem getParamsColon_exceptions :
    (sampleColon.getParamsColon 1 1 = some (lit ":p2") ∧ needsColon (lit "p2") = false) ∧
      sampleColon.getParamsColon 2 1 = none ∧
      ∃ m : CMessage, m.vsParams.length = 2 ^ 32 ∧
        m.getParamsColon 0 0xFFFFFFFF ≠ some ((lit " ").join (showParams m.bColon m.vsParams)) := by
  refine ⟨⟨?_, by decide⟩, ?_, { blank stoppedClock with vsParams := List.replicate (2 ^ 32) [] },
    length_replicate, ?_⟩
  · have hsplit : sampleColon.getParamsSplit 1 1 = [lit "p2"] := by decide
    rw [getParamsColon_slice sampleColon (by decide) (by decide), hsplit]
    decide
  · rw [getParamsColon_behind sampleColon (by decide) (by decide) (by decide), if_pos (by decide)]
  · intro h
    obtain ⟨s, hs, hshort⟩ := length_getParamsColon_lt
      { blank stoppedClock with vsParams := List.replicate (2 ^ 32) [] } length_replicate.ge
    rw [hs, Option.some_inj] at h
    exact absurd (congrArg List.length h) hshort.ne

end ZNC.CMessage
