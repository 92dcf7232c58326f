/-
Base64 with line breaks, and the buffer of the decoder: the rest of `CString::Base64Encode` and `Base64Decode` of
`src/ZNCString.cpp`.

The encoder asks of `uWrap` only whether it is zero, and ends a line after 57 bytes of the input. The decoder writes to a buffer
of its own, one byte larger than the text without line breaks; here each access to it and to the text is checked.

Results:
- `length_base64EncodeWrap`, `length_lt_toalloc`: how long an encoded text is, and that it fits the encoder's buffer;
- `base64DecodeBuffer_eq`: no access of the decoder is out of bounds, and it computes `base64Decode`;
- `lines_encodeFrom`: a line for each 57 bytes of the input;
- `base64_wrapped`: the round trip at every `uWrap`, the lines, and the length of what is decoded.
-/
import ZNC.Base64

namespace ZNC.CString

open List Option

/-! ## The encoder -/

/-- the loop of `Base64Encode` and what follows it, from the byte `i` of the input on -/
def encodeFrom (uWrap : UInt32) (i : ℕ) : CString → CString
  | [] => if uWrap ≠ 0 ∧ i % 57 ≠ 0 then [ch '\n'] else []
  | [a] => base64Encode [a] ++ if uWrap ≠ 0 then [ch '\n'] else []
  | [a, b] => base64Encode [a, b] ++ if uWrap ≠ 0 then [ch '\n'] else []
  | a :: b :: c :: l =>
    base64Encode [a, b, c] ++ (if uWrap ≠ 0 ∧ (i + 3) % 57 = 0 then [ch '\n'] else []) ++ encodeFrom uWrap (i + 3) l

/-- `Base64Encode(sRet, uWrap)` -/
def base64EncodeWrap (s : CString) (uWrap : UInt32) : CString := encodeFrom uWrap 0 s

/-- the size of the encoder's buffer -/
def toalloc (len : ℕ) (uWrap : UInt32) : ℕ :=
  len / 3 * 4 + (3 - len % 3) % 3 + 1 + 8 + if uWrap ≠ 0 then len / 57 + (if len % 57 ≠ 0 then 1 else 0) else 0

theorem base64Encode_group (a b c : UInt8) (l : CString) :
    base64Encode (a :: b :: c :: l) = base64Encode [a, b, c] ++ base64Encode l := rfl

variable (uWrap : UInt32) (s : CString)

theorem length_encodeFrom {i : ℕ} (hi : i % 3 = 0) (s : CString) :
    (encodeFrom uWrap i s).length =
      4 * ((s.length + 2) / 3) + if uWrap ≠ 0 then (i + s.length + 56) / 57 - i / 57 else 0 := by
  induction s using base64Encode.induct generalizing i with
  | case1 =>
    rw [encodeFrom]
    by_cases hw : uWrap = 0
    · simp [hw]
    · by_cases h57 : i % 57 = 0
      · simp only [hw, h57, ne_eq, not_false_eq_true, not_true_eq_false, and_false, if_true, if_false, length_nil]
        omega
      · simp only [hw, h57, ne_eq, not_false_eq_true, and_self, if_true, length_singleton, length_nil]
        omega
  | case2 a =>
    rw [encodeFrom]
    by_cases hw : uWrap = 0
    · simp [hw, length_base64Encode]
    · simp only [hw, ne_eq, not_false_eq_true, if_true, length_append, length_base64Encode, length_singleton]
      omega
  | case3 a b =>
    rw [encodeFrom]
    by_cases hw : uWrap = 0
    · simp [hw, length_base64Encode]
    · simp only [hw, ne_eq, not_false_eq_true, if_true, length_append, length_base64Encode, length_cons, length_nil]
      omega
  | case4 a b c l ih =>
    rw [encodeFrom, length_append, ih (i := i + 3) (by omega)]
    by_cases hw : uWrap = 0
    · simp only [hw, ne_eq, not_true_eq_false, false_and, if_false, append_nil, length_base64Encode, length_cons,
        length_nil]
      omega
    · by_cases h57 : (i + 3) % 57 = 0
      · simp only [hw, h57, ne_eq, not_false_eq_true, and_self, if_true, length_append, length_base64Encode,
          length_cons, length_nil]
        omega
      · simp only [hw, h57, ne_eq, not_false_eq_true, and_false, if_true, if_false, append_nil, length_base64Encode,
          length_cons, length_nil]
        omega

/-- four letters for each group of three bytes, and a line break for each 57 bytes -/
theorem length_base64EncodeWrap (uWrap : UInt32) :
    (base64EncodeWrap s uWrap).length = 4 * ((s.length + 2) / 3) + if uWrap ≠ 0 then (s.length + 56) / 57 else 0 := by
  rw [base64EncodeWrap, length_encodeFrom uWrap (i := 0) rfl]
  simp

theorem length_lt_toalloc (uWrap : UInt32) :
    (base64EncodeWrap s uWrap).length < toalloc s.length uWrap := by
  rw [length_base64EncodeWrap, toalloc]
  split
  · split <;> omega
  · omega

theorem encodeFrom_filter (i : ℕ) (s : CString) :
    (encodeFrom uWrap i s).filter (fun c => c ≠ ch '\n') = base64Encode s := by
  have hletters : ∀ t : CString, (base64Encode t).filter (fun c => c ≠ ch '\n') = base64Encode t := by
    intro t
    rw [filter_eq_self]
    intro c hc
    exact decide_eq_true (mem_base64Encode t c hc).ne.2.2.1
  have hbreak : ∀ (p : Prop) [Decidable p],
      ((if p then [ch '\n'] else []) : CString).filter (fun c => c ≠ ch '\n') = [] := by
    intro p _
    split <;> rfl
  induction s using base64Encode.induct generalizing i with
  | case1 => rw [encodeFrom, hbreak, base64Encode]
  | case2 a => rw [encodeFrom, filter_append, hletters, hbreak, append_nil]
  | case3 a b => rw [encodeFrom, filter_append, hletters, hbreak, append_nil]
  | case4 a b c l ih =>
    rw [encodeFrom, filter_append, filter_append, hletters, hbreak, append_nil, ih, base64Encode_group a b c l]

theorem encodeFrom_zero (i : ℕ) (s : CString) : encodeFrom 0 i s = base64Encode s := by
  induction s using base64Encode.induct generalizing i with
  | case1 => rfl
  | case2 a => rfl
  | case3 a b => rfl
  | case4 a b c l ih =>
    rw [encodeFrom, if_neg (fun h => h.1 rfl), append_nil, ih, base64Encode_group a b c l]

theorem mem_encodeFrom (i : ℕ) (s : CString) :
    ∀ c ∈ encodeFrom uWrap i s, IsBase64 c ∨ c = ch '\n' := by
  intro c hc
  by_cases hn : c = ch '\n'
  · exact .inr hn
  · have hmem : c ∈ (encodeFrom uWrap i s).filter (fun c => c ≠ ch '\n') := mem_filter.2 ⟨hc, decide_eq_true hn⟩
    rw [encodeFrom_filter] at hmem
    exact .inl (mem_base64Encode s c hmem)

/-! ## Lines -/

def lines (s : CString) : List CString := s.splitOn (ch '\n')

theorem lines_ne_nil : lines s ≠ [] := splitOnP_ne_nil _ _

theorem lines_break : lines (ch '\n' :: s) = [] :: lines s := by
  rw [lines, List.splitOn, splitOnP_cons_eq_if_modifyHead, if_pos (beq_self_eq_true _)]
  rfl

theorem lines_append_line {t : CString} (ht : ch '\n' ∉ t) (s : CString) :
    lines (t ++ s) = (t ++ (lines s).headD []) :: (lines s).tail := by
  induction t with
  | nil =>
    obtain ⟨l, ls, hls⟩ := exists_cons_of_ne_nil (lines_ne_nil s)
    simp [hls]
  | cons c t ih =>
    rw [mem_cons, not_or] at ht
    have hc : ¬(c == ch '\n') = true := by simpa using Ne.symm ht.1
    have hcons : lines (c :: (t ++ s)) = (lines (t ++ s)).modifyHead (List.cons c) := by
      rw [lines, List.splitOn, splitOnP_cons_eq_if_modifyHead, if_neg hc]
      rfl
    rw [cons_append, hcons, ih ht.2]
    rfl

theorem lines_line {t : CString} (ht : ch '\n' ∉ t) (s : CString) : lines (t ++ ch '\n' :: s) = t :: lines s := by
  rw [lines_append_line ht, lines_break, headD_cons, tail_cons, append_nil]

theorem newline_notMem : ch '\n' ∉ base64Encode s := fun h => (mem_base64Encode s _ h).ne.2.2.1 rfl

/-- the input in pieces of 57 bytes -/
def linePieces : CString → List CString
  | [] => []
  | a :: s => (a :: s.take 56) :: linePieces (s.drop 56)
termination_by s => s.length
decreasing_by
  rw [length_drop, length_cons]
  omega

theorem mem_pieces : ∀ t ∈ linePieces s, t.length ≤ 57 := by
  induction s using linePieces.induct with
  | case1 => simp [linePieces]
  | case2 a s ih =>
    rw [linePieces]
    intro t ht
    rcases mem_cons.1 ht with rfl | ht
    · exact Nat.succ_le_succ (length_take_le 56 s)
    · exact ih t ht

/-- the rest of the line that is begun before the byte `i`, and the lines behind it -/
theorem encodeFrom_line {uWrap : UInt32} (hw : uWrap ≠ 0) {i : ℕ} (hi : i % 3 = 0) (s : CString)
    (hline : i % 57 ≠ 0 ∨ s ≠ []) :
    encodeFrom uWrap i s = base64Encode (s.take (57 - i % 57)) ++
      ch '\n' :: encodeFrom uWrap (i + (57 - i % 57)) (s.drop (57 - i % 57)) := by
  have hend : (i + (57 - i % 57)) % 57 = 0 := by omega
  have hnil : encodeFrom uWrap (i + (57 - i % 57)) [] = [] := by simp [encodeFrom, hend]
  induction s using base64Encode.induct generalizing i with
  | case1 =>
    rw [take_nil, drop_nil, hnil, encodeFrom, if_pos ⟨hw, hline.resolve_right (by simp)⟩]
    rfl
  | case2 a =>
    rw [take_of_length_le (by rw [length_singleton]; omega),
      drop_of_length_le (by rw [length_singleton]; omega), hnil, encodeFrom, if_pos hw]
  | case3 a b =>
    have hroom : [a, b].length ≤ 57 - i % 57 := by
      simp only [length_cons, length_nil]
      omega
    rw [take_of_length_le hroom, drop_of_length_le hroom, hnil, encodeFrom, if_pos hw]
  | case4 a b c l ih =>
    obtain ⟨k, hk⟩ : ∃ k, 57 - i % 57 = k + 3 := ⟨54 - i % 57, by omega⟩
    rw [hk, encodeFrom]
    by_cases h57 : (i + 3) % 57 = 0
    · obtain rfl : k = 0 := by omega
      rw [if_pos ⟨hw, h57⟩, append_assoc]
      rfl
    · have hrest : 57 - (i + 3) % 57 = k := by omega
      have h := ih (i := i + 3) (by omega) (.inl h57) (by omega) (by
        rw [show i + 3 + (57 - (i + 3) % 57) = i + (57 - i % 57) by omega]
        exact hnil)
      rw [if_neg fun h => h57 h.2, append_nil, h, hrest, take_succ_cons, take_succ_cons,
        take_succ_cons, base64Encode_group a b c, append_assoc, Nat.add_assoc i 3 k, Nat.add_comm 3 k]
      rfl

/-- **One line for each 57 bytes.** -/
theorem lines_encodeFrom {uWrap : UInt32} (hw : uWrap ≠ 0) {i : ℕ} (hi : i % 57 = 0) (s : CString) :
    lines (encodeFrom uWrap i s) = (linePieces s).map base64Encode ++ [[]] := by
  induction s using linePieces.induct generalizing i with
  | case1 => simp [linePieces, encodeFrom, hi, lines]
  | case2 a s ih =>
    have hline := encodeFrom_line hw (i := i) (by omega) (a :: s) (.inr (cons_ne_nil a s))
    rw [hi] at hline
    rw [hline, lines_line (newline_notMem _), linePieces, map_cons, cons_append, ← ih (i := i + 57) (by omega)]
    rfl

theorem length_line_le {uWrap : UInt32} (hw : uWrap ≠ 0) (s : CString) :
    ∀ l ∈ lines (base64EncodeWrap s uWrap), l.length ≤ 76 := by
  intro l hl
  rw [base64EncodeWrap, lines_encodeFrom hw rfl] at hl
  rcases mem_append.1 hl with hl | hl
  · obtain ⟨t, ht, rfl⟩ := mem_map.1 hl
    have hle := mem_pieces s t ht
    rw [length_base64Encode]
    omega
  · rw [mem_singleton.1 hl]
    exact Nat.zero_le 76

/-! ## The decoder's buffer -/

/-- `in[i]`; the byte behind the last one is the terminator, and behind it there is nothing -/
def byteAt (s : CString) (i : ℕ) : Option UInt8 := if i ≤ s.length then some (s.getD i 0) else none

/-- `out[p] = c` -/
def put (out : CString) (p : ℕ) (c : UInt8) : Option CString := if p < out.length then some (out.set p c) else none

/-- the loop of `Base64Decode` from the letter `i` and the place `p` of the buffer on -/
def decodeBuffer (s : CString) (i : ℕ) (out : CString) (p : ℕ) : Option (CString × ℕ) :=
  if i < s.length then
    (byteAt s i).bind fun c =>
    (byteAt s (i + 1)).bind fun c1 =>
    (put out p (firstByte c c1)).bind fun out =>
    if i + 2 < s.length then
      (byteAt s (i + 2)).bind fun x =>
      if x = ch '=' then some (out, p + 1)
      else
        (put out (p + 1) (secondByte c1 x)).bind fun out =>
        if i + 3 < s.length then
          (byteAt s (i + 3)).bind fun y =>
          if y = ch '=' then some (out, p + 2)
          else (put out (p + 2) (thirdByte x y)).bind fun out => decodeBuffer s (i + 4) out (p + 3)
        else decodeBuffer s (i + 4) out (p + 2)
    else decodeBuffer s (i + 4) out (p + 1)
  else some (out, p)
termination_by s.length - i

/-- `Base64Decode(sRet)`: what is in `sRet` and what is returned; `none` for an access out of bounds -/
def base64DecodeBuffer (s : CString) : Option (CString × ℕ) :=
  let sTmp := (s.remove_n (ch '\r')).remove_n (ch '\n')
  (decodeBuffer sTmp 0 (List.replicate (sTmp.length + 1) 0) 0).bind fun r =>
    (put r.1 r.2 0).map fun out => (out.take r.2, r.2)

theorem byteAt_eq {s : CString} {i : ℕ} {c : UInt8} {r : CString} (h : s.drop i = c :: r) : byteAt s i = some c := by
  have hi : i < s.length := by
    by_contra hle
    rw [drop_eq_nil_of_le (not_lt.1 hle)] at h
    exact absurd h (cons_ne_nil _ _).symm
  have hget : s.getD i 0 = c := by
    have h0 := congrArg List.head? h
    rw [head?_drop, head?_cons] at h0
    rw [getD_eq_getElem?_getD, h0, getD_some]
  rw [byteAt, if_pos hi.le, hget]

theorem byteAt_end : byteAt s s.length = some 0 := by simp [byteAt]

theorem put_eq {out : CString} {p : ℕ} (h : p < out.length) (c : UInt8) : put out p c = some (out.set p c) := by
  rw [put, if_pos h]

theorem take_set {out : CString} {p : ℕ} (h : p < out.length) (c : UInt8) :
    (out.set p c).take (p + 1) = out.take p ++ [c] := by
  rw [set_eq_take_append_cons_drop, if_pos h, take_append, length_take, min_eq_left h.le,
    Nat.add_sub_cancel_left, take_of_length_le (by simp)]
  rfl

theorem drop_succ {s : CString} {i : ℕ} {c : UInt8} {r : CString} (h : s.drop i = c :: r) : s.drop (i + 1) = r := by
  rw [← drop_drop, h, drop_one, tail_cons]

/-- what the loop leaves in the buffer, from the letter `i` and the place `p` on -/
structure Decoded (s out : CString) (i p : ℕ) (r : CString × ℕ) : Prop where
  size : r.1.length = out.length
  text : r.1.take r.2 = out.take p ++ decodeLoop (s.drop i)
  place : r.2 = p + (decodeLoop (s.drop i)).length

/-- **No access of the loop is out of bounds.** The place in the buffer stays behind the place in the text. -/
theorem decodeBuffer_spec {s l out : CString} {i p : ℕ} (hl : s.drop i = l)
    (hout : out.length = s.length + 1) (hp : p ≤ i) :
    ∃ r, decodeBuffer s i out p = some r ∧ Decoded s out i p r := by
  have hlen : s.length - i = l.length := by rw [← hl, length_drop]
  induction l using decodeLoop.induct generalizing i p out with
  | case1 =>
    rw [length_nil] at hlen
    rw [decodeBuffer, if_neg (by omega)]
    exact ⟨_, rfl, rfl, by rw [hl, decodeLoop, append_nil], by rw [hl]; rfl⟩
  | case2 a =>
    -- the second letter is the terminator
    rw [length_singleton] at hlen
    have hend : byteAt s (i + 1) = some 0 := by
      have h := byteAt_end s
      rwa [show s.length = i + 1 by omega] at h
    rw [decodeBuffer, if_pos (by omega), byteAt_eq hl, bind_some, hend, bind_some, put_eq (by omega),
      bind_some, if_neg (by omega), decodeBuffer, if_neg (by omega)]
    refine ⟨_, rfl, length_set, ?_, by rw [hl]; rfl⟩
    rw [take_set (by omega), hl, decodeLoop]
  | case3 a b =>
    simp only [length_cons, length_nil] at hlen
    have h1 := drop_succ hl
    rw [decodeBuffer, if_pos (by omega), byteAt_eq hl, bind_some, byteAt_eq h1, bind_some, put_eq (by omega),
      bind_some, if_neg (by omega), decodeBuffer, if_neg (by omega)]
    refine ⟨_, rfl, length_set, ?_, by rw [hl]; rfl⟩
    rw [take_set (by omega), hl, decodeLoop]
  | case4 a b =>
    simp only [length_cons, length_nil] at hlen
    have h1 := drop_succ hl
    rw [decodeBuffer, if_pos (by omega), byteAt_eq hl, bind_some, byteAt_eq h1, bind_some, put_eq (by omega),
      bind_some, if_pos (by omega), byteAt_eq (drop_succ h1), bind_some, if_pos rfl]
    refine ⟨_, rfl, length_set, ?_, by rw [hl, decodeLoop, if_pos rfl]; rfl⟩
    rw [take_set (by omega), hl, decodeLoop, if_pos rfl]
  | case5 a b x hx =>
    simp only [length_cons, length_nil] at hlen
    have h1 := drop_succ hl
    have hput : (out.set p (firstByte a b)).length = s.length + 1 := length_set.trans hout
    rw [decodeBuffer, if_pos (by omega), byteAt_eq hl, bind_some, byteAt_eq h1, bind_some, put_eq (by omega),
      bind_some, if_pos (by omega), byteAt_eq (drop_succ h1), bind_some, if_neg hx, put_eq (by omega), bind_some,
      if_neg (by omega), decodeBuffer, if_neg (by omega)]
    refine ⟨_, rfl, length_set.trans length_set, ?_, by rw [hl, decodeLoop, if_neg hx]; rfl⟩
    rw [take_set (by omega), take_set (by omega), hl, decodeLoop, if_neg hx, append_assoc]
    rfl
  | case6 a b y l =>
    simp only [length_cons] at hlen
    have h1 := drop_succ hl
    rw [decodeBuffer, if_pos (by omega), byteAt_eq hl, bind_some, byteAt_eq h1, bind_some, put_eq (by omega),
      bind_some, if_pos (by omega), byteAt_eq (drop_succ h1), bind_some, if_pos rfl]
    refine ⟨_, rfl, length_set, ?_, by rw [hl, decodeLoop, if_pos rfl]; rfl⟩
    rw [take_set (by omega), hl, decodeLoop, if_pos rfl]
  | case7 a b x l hx =>
    simp only [length_cons] at hlen
    have h1 := drop_succ hl
    have h2 := drop_succ h1
    have hput : (out.set p (firstByte a b)).length = s.length + 1 := length_set.trans hout
    rw [decodeBuffer, if_pos (by omega), byteAt_eq hl, bind_some, byteAt_eq h1, bind_some, put_eq (by omega),
      bind_some, if_pos (by omega), byteAt_eq h2, bind_some, if_neg hx, put_eq (by omega), bind_some,
      if_pos (by omega), byteAt_eq (drop_succ h2), bind_some, if_pos rfl]
    refine ⟨_, rfl, length_set.trans length_set, ?_, by rw [hl, decodeLoop, if_neg hx, if_pos rfl]; rfl⟩
    rw [take_set (by omega), take_set (by omega), hl, decodeLoop, if_neg hx, if_pos rfl, append_assoc]
    rfl
  | case8 a b x y l hx hy ih =>
    simp only [length_cons] at hlen
    have h1 := drop_succ hl
    have h2 := drop_succ h1
    have h3 := drop_succ h2
    have hput : (out.set p (firstByte a b)).length = s.length + 1 := length_set.trans hout
    have hput' : ((out.set p (firstByte a b)).set (p + 1) (secondByte b x)).length = s.length + 1 :=
      length_set.trans hput
    have hput3 (c : UInt8) :
        (((out.set p (firstByte a b)).set (p + 1) (secondByte b x)).set (p + 2) c).length = s.length + 1 :=
      length_set.trans hput'
    obtain ⟨r, hr, hdec⟩ := ih (drop_succ h3)
      (hput3 (thirdByte x y)) (show p + 3 ≤ i + 4 by omega) (by omega)
    rw [decodeBuffer, if_pos (by omega), byteAt_eq hl, bind_some, byteAt_eq h1, bind_some, put_eq (by omega),
      bind_some, if_pos (by omega), byteAt_eq h2, bind_some, if_neg hx, put_eq (by omega), bind_some,
      if_pos (by omega), byteAt_eq h3, bind_some, if_neg hy, put_eq (by omega), bind_some, hr]
    have hloop : decodeLoop (s.drop i) =
      firstByte a b :: secondByte b x :: thirdByte x y :: decodeLoop (s.drop (i + 4)) := by
      rw [hl, decodeLoop, if_neg hx, if_neg hy, drop_succ h3]
    refine ⟨r, rfl, ?_, ?_, ?_⟩
    · exact hdec.size.trans (length_set.trans (length_set.trans length_set))
    · rw [hdec.text, take_set (by omega), take_set (by omega), take_set (by omega), hloop]
      simp
    · have hlen' : (decodeLoop (s.drop i)).length = 3 + (decodeLoop (s.drop (i + 4))).length := by
        rw [hloop]
        exact Nat.add_comm _ 3
      rw [hdec.place, hlen', Nat.add_assoc]

theorem base64DecodeBuffer_eq :
    base64DecodeBuffer s = some (base64Decode s, (base64Decode s).length) := by
  obtain ⟨r, hr, hdec⟩ := decodeBuffer_spec (s := (s.remove_n (ch '\r')).remove_n (ch '\n')) (i := 0) (p := 0) rfl
    (length_replicate (n := _) (a := (0 : UInt8))) le_rfl
  have hplace : r.2 = (base64Decode s).length := by rw [hdec.place, Nat.zero_add]; rfl
  have htext : r.1.take r.2 = base64Decode s := by rw [hdec.text]; rfl
  have hle := length_decodeLoop ((s.remove_n (ch '\r')).remove_n (ch '\n'))
  have hsize := hdec.size
  rw [length_replicate] at hsize
  have hroom : r.2 < r.1.length := by
    rw [hplace, hsize, base64Decode]
    omega
  have hend : (r.1.set r.2 0).take r.2 = r.1.take r.2 := by
    rw [take_set_of_le (le_refl _)]
  rw [base64DecodeBuffer]
  simp only [hr, bind_some, put_eq hroom, map_some, hend, htext]
  rw [hplace]

/-- **The round trip**, for every `uWrap` -/
theorem base64Decode_wrap (uWrap : UInt32) : base64Decode (base64EncodeWrap s uWrap) = s := by
  have hmem := mem_encodeFrom uWrap 0 s
  have h0 : (0 : UInt8) ∉ base64EncodeWrap s uWrap := by
    intro h
    rcases hmem _ h with h | h
    · exact h.ne.1 rfl
    · exact absurd h (by decide)
  have hr : ch '\r' ∉ base64EncodeWrap s uWrap := by
    intro h
    rcases hmem _ h with h | h
    · exact h.ne.2.1 rfl
    · exact absurd h (by decide)
  rw [base64Decode, remove_n_eq_self h0 hr, remove_n, cStr_eq_self h0, base64EncodeWrap,
    encodeFrom_filter, decodeLoop_encode]

/-- **Base64**: what is encoded is decoded again, whatever `uWrap` is; with `uWrap` there is a line for each 57 bytes, none
longer than 76 letters, and without it there is one line; and whatever the decoder is given, it stays in its buffer and
returns three bytes for four letters, and one for a single letter over. -/
theorem base64_wrapped (s : CString) (uWrap : UInt32) :
    base64DecodeBuffer (base64EncodeWrap s uWrap) = some (s, s.length) ∧
      (uWrap = 0 ∨ lines (base64EncodeWrap s uWrap) = (linePieces s).map base64Encode ++ [[]]) ∧
      (lines (base64EncodeWrap s uWrap)).all (fun l => uWrap = 0 ∨ l.length ≤ 76) ∧
      lines (base64EncodeWrap s 0) = [base64EncodeWrap s 0] ∧
      ∃ r, base64DecodeBuffer s = some (r, r.length) ∧ 4 * r.length ≤ 3 * s.length + 1 := by
  refine ⟨?_, ?_, ?_, ?_, base64Decode s, base64DecodeBuffer_eq s, length_base64Decode s⟩
  · rw [base64DecodeBuffer_eq, base64Decode_wrap]
  · exact or_iff_not_imp_left.2 fun hw => lines_encodeFrom hw rfl s
  · by_cases hw : uWrap = 0
    · simp [hw]
    · rw [List.all_eq_true]
      intro l hl
      exact decide_eq_true (.inr (length_line_le hw s l hl))
  · have h := lines_append_line (newline_notMem s) []
    rw [append_nil] at h
    rw [base64EncodeWrap, encodeFrom_zero, h]
    simp [lines]

/-- a line of four letters at the width 1, and a whole byte for a single letter -/
theorem base64_width_one :
    (lines (base64EncodeWrap (lit "abc") 1) = [lit "YWJj", []] ∧ ¬(lit "YWJj").length ≤ 1) ∧
      base64DecodeBuffer (lit "A") = some ([0x03], 1) ∧ ¬4 * 1 ≤ 3 * (lit "A").length := by
  refine ⟨⟨by decide, by decide⟩, ?_, by decide⟩
  rw [base64DecodeBuffer_eq]
  decide

example : base64EncodeWrap (lit "ab") 1 = lit "YWI=\n" := by decide

end ZNC.CString
