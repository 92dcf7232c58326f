/-
SHA-256: `src/SHA256.cpp`.

A text may come in parts. What does not fill a block of 64 bytes waits in a buffer; the end is filled up with a byte
0x80, zeros and the length of the text in bits. The standard has a length of eight bytes there. The code writes the last
four of them, and the first four stay zero.

Model: a buffer is there before it is written to, so its bytes are any. `sha256_transf` counts its blocks in an `int`,
and the offset of a block is that of an `int` too; more than 2^25 blocks at once overflow it.

Results:
- `sha256_update_has`: what a part does;
- `sha256_final_eq`: the end of a text;
- `sha256_parts`: a text in parts has the hash of the standard, up to 2^29 bytes.
-/
import ZNC.CString
import ZNC.Lib.BlockHash

namespace ZNC.SHA256

open BlockHash List

/-! ## Model -/

/-- eight numbers, as they stand in an array -/
structure Regs where
  (a b c d e f g h : UInt32)
deriving DecidableEq

def ROTR (x : UInt32) (n : UInt32) : UInt32 := x >>> n ||| x <<< (32 - n)

def CH (x y z : UInt32) : UInt32 := (x &&& y) ^^^ (~~~x &&& z)

def MAJ (x y z : UInt32) : UInt32 := (x &&& y) ^^^ (x &&& z) ^^^ (y &&& z)

def F1 (x : UInt32) : UInt32 := ROTR x 2 ^^^ ROTR x 13 ^^^ ROTR x 22

def F2 (x : UInt32) : UInt32 := ROTR x 6 ^^^ ROTR x 11 ^^^ ROTR x 25

def F3 (x : UInt32) : UInt32 := ROTR x 7 ^^^ ROTR x 18 ^^^ x >>> 3

def F4 (x : UInt32) : UInt32 := ROTR x 17 ^^^ ROTR x 19 ^^^ x >>> 10

/-- `UNPACK32`: four bytes, the highest one first -/
def UNPACK32 (x : UInt32) : CString := [(x >>> 24).toUInt8, (x >>> 16).toUInt8, (x >>> 8).toUInt8, x.toUInt8]

/-- `PACK32` of four bytes -/
def PACK32 (str : CString) : UInt32 :=
  (str.getD 3 0).toUInt32 ||| (str.getD 2 0).toUInt32 <<< 8 ||| (str.getD 1 0).toUInt32 <<< 16 |||
    (str.getD 0 0).toUInt32 <<< 24

def sha256_h0 : Regs :=
  ⟨0x6a09e667, 0xbb67ae85, 0x3c6ef372, 0xa54ff53a, 0x510e527f, 0x9b05688c, 0x1f83d9ab, 0x5be0cd19⟩

def sha256_k : List UInt32 := [
  0x428a2f98, 0x71374491, 0xb5c0fbcf, 0xe9b5dba5, 0x3956c25b, 0x59f111f1, 0x923f82a4, 0xab1c5ed5, 0xd807aa98,
  0x12835b01, 0x243185be, 0x550c7dc3, 0x72be5d74, 0x80deb1fe, 0x9bdc06a7, 0xc19bf174, 0xe49b69c1, 0xefbe4786,
  0x0fc19dc6, 0x240ca1cc, 0x2de92c6f, 0x4a7484aa, 0x5cb0a9dc, 0x76f988da, 0x983e5152, 0xa831c66d, 0xb00327c8,
  0xbf597fc7, 0xc6e00bf3, 0xd5a79147, 0x06ca6351, 0x14292967, 0x27b70a85, 0x2e1b2138, 0x4d2c6dfc, 0x53380d13,
  0x650a7354, 0x766a0abb, 0x81c2c92e, 0x92722c85, 0xa2bfe8a1, 0xa81a664b, 0xc24b8b70, 0xc76c51a3, 0xd192e819,
  0xd6990624, 0xf40e3585, 0x106aa070, 0x19a4c116, 0x1e376c08, 0x2748774c, 0x34b0bcb5, 0x391c0cb3, 0x4ed8aa4a,
  0x5b9cca4f, 0x682e6ff3, 0x748f82ee, 0x78a5636f, 0x84c87814, 0x8cc70208, 0x90befffa, 0xa4506ceb, 0xbef9a3f7,
  0xc67178f2]

/-- the next `k` numbers of `w` -/
def SHA256_SCR : ℕ → List UInt32 → List UInt32
  | 0, w => w
  | k + 1, w =>
    let i := w.length
    SHA256_SCR k (w ++ [F4 (w.getD (i - 2) 0) + w.getD (i - 7) 0 + F3 (w.getD (i - 15) 0) + w.getD (i - 16) 0])

/-- a round; it takes a constant and a number of the block -/
def round (wv : Regs) (kw : UInt32 × UInt32) : Regs :=
  let t1 := wv.h + F2 wv.e + CH wv.e wv.f wv.g + kw.1 + kw.2
  let t2 := F1 wv.a + MAJ wv.a wv.b wv.c
  ⟨t1 + t2, wv.a, wv.b, wv.c, wv.d + t1, wv.e, wv.f, wv.g⟩

/-- a turn of the loop of `sha256_transf` -/
def compress (h : Regs) (sub_block : CString) : Regs :=
  let w := SHA256_SCR 48 ((List.range 16).map fun j => PACK32 (sub_block.drop (4 * j)))
  let wv := (sha256_k.zip w).foldl round h
  ⟨h.a + wv.a, h.b + wv.b, h.c + wv.c, h.d + wv.d, h.e + wv.e, h.f + wv.f, h.g + wv.g, h.h + wv.h⟩

structure sha256_ctx where
  tot_len : ℕ
  len : ℕ
  block : CString
  h : Regs

/-- the bytes of a buffer from a place on are overwritten -/
def memcpy (dest : CString) (i : ℕ) (src : CString) : CString := dest.take i ++ src ++ dest.drop (i + src.length)

/-- `sha256_transf`; the offset of a block has to be an `int` -/
def sha256_transf (ctx : sha256_ctx) (message : CString) (block_nb : ℕ) : Option sha256_ctx :=
  if block_nb ≤ 2 ^ 25 then some { ctx with h := blocks compress 64 block_nb ctx.h message } else none

def sha256_init (block : CString) : sha256_ctx := ⟨0, 0, block, sha256_h0⟩

def sha256_update (ctx : sha256_ctx) (message : CString) : Option sha256_ctx := do
  let rem_len := min message.length (64 - ctx.len)
  let block := memcpy ctx.block ctx.len (message.take rem_len)
  if ctx.len + message.length < 64 then return { ctx with block := block, len := ctx.len + message.length }
  let new_len := message.length - rem_len
  let block_nb := new_len / 64
  let shifted_message := message.drop rem_len
  let ctx ← sha256_transf { ctx with block := block } block 1
  let ctx ← sha256_transf ctx shifted_message block_nb
  let rem_len := new_len % 64
  return { ctx with
    block := memcpy ctx.block 0 ((shifted_message.drop (block_nb * 64)).take rem_len)
    len := rem_len
    tot_len := ctx.tot_len + (block_nb + 1) * 64 }

def Regs.bytes (h : Regs) : CString := [h.a, h.b, h.c, h.d, h.e, h.f, h.g, h.h].flatMap UNPACK32

/-- `sha256_final`; `UNPACK32` takes the low 32 bits of the length -/
def sha256_final (ctx : sha256_ctx) : Option CString := do
  let block_nb := 1 + if 64 - 9 < ctx.len % 64 then 1 else 0
  let len_b := (ctx.tot_len + ctx.len) * 8
  let pm_len := block_nb * 64
  let block := memcpy ctx.block ctx.len (List.replicate (pm_len - ctx.len) 0)
  let block := memcpy block ctx.len [0x80]
  let block := memcpy block (pm_len - 4) (UNPACK32 (UInt32.ofNat len_b))
  return (← sha256_transf { ctx with block := block } block block_nb).h.bytes

/-- a text that comes in parts -/
def hashParts (block : CString) (parts : List CString) : Option CString :=
  parts.foldlM sha256_update (sha256_init block) >>= sha256_final

/-! ## Statement -/

/-- the number of zeros that fill up a text of a length -/
def zeros (len : ℕ) : ℕ := (64 - (len + 9) % 64) % 64

/-- the padding of the standard: the length is a number of eight bytes -/
def padding (len : ℕ) : CString :=
  0x80 :: (List.replicate (zeros len) 0 ++ UNPACK32 (UInt32.ofNat (8 * len / 2 ^ 32)) ++
    UNPACK32 (UInt32.ofNat (8 * len)))

/-- SHA-256 of a text, block after block -/
def standard (m : CString) : CString := (digest compress 64 sha256_h0 (m ++ padding m.length)).bytes

/-- the same with a length of four bytes -/
def shortLength (m : CString) : CString :=
  (digest compress 64 sha256_h0
    (m ++ 0x80 :: (List.replicate (zeros m.length + 4) 0 ++ UNPACK32 (UInt32.ofNat (8 * m.length))))).bytes

/-! ## Parts -/

/-- the parts so far are those of a text -/
structure Has (ctx : sha256_ctx) (m : CString) : Prop where
  h : ctx.h = digest compress 64 sha256_h0 m
  block : ctx.block.length = 128 ∧ ctx.block.take ctx.len = rest 64 m
  len : ctx.len = m.length % 64
  tot_len : ctx.tot_len = m.length / 64 * 64

theorem memcpy_append {a b c : CString} {i : ℕ} {src : CString} (ha : a.length = i) (hb : b.length = src.length) :
    memcpy (a ++ b ++ c) i src = a ++ src ++ c := by
  have htake : (a ++ b ++ c).take i = a := by
    rw [append_assoc]
    exact take_left' ha
  have hdrop : (a ++ b ++ c).drop (i + src.length) = c := drop_left' (by rw [length_append, ha, hb])
  rw [memcpy, htake, hdrop]

theorem length_memcpy {dest src : CString} {i : ℕ} (h : i + src.length ≤ dest.length) :
    (memcpy dest i src).length = dest.length := by
  rw [memcpy, length_append, length_append, length_take, length_drop]
  omega

variable {ctx : sha256_ctx} {m : CString}

theorem sha256_transf_some {block_nb : ℕ} (h : block_nb ≤ 2 ^ 25) (message : CString) :
    sha256_transf ctx message block_nb = some { ctx with h := blocks compress 64 block_nb ctx.h message } := if_pos h

theorem has_init {block : CString} (h : block.length = 128) : Has (sha256_init block) [] := ⟨rfl, ⟨h, rfl⟩, rfl, rfl⟩

theorem Has.buffer (h : Has ctx m) :
    ∃ junk, ctx.block = rest 64 m ++ junk ∧ (rest 64 m).length = ctx.len ∧ ctx.len + junk.length = 128 := by
  refine ⟨ctx.block.drop ctx.len, ?_, by rw [length_rest, h.len], ?_⟩
  · rw [← h.block.2, take_append_drop]
  · rw [length_drop, h.block.1, h.len]
    omega

/-- **A part** goes behind the text. -/
theorem sha256_update_has {p : CString} (h : Has ctx m) (hp : p.length < 2 ^ 31) :
    ∃ ctx', sha256_update ctx p = some ctx' ∧ Has ctx' (m ++ p) := by
  obtain ⟨junk, hblock, htail, hjunk⟩ := h.buffer
  have hlen := h.len
  have htot := h.tot_len
  have hpos : (0 : ℕ) < 64 := by decide
  have hdigest := digest_append compress hpos sha256_h0 m p
  have hrest := rest_append hpos m p
  set tail := rest 64 m
  -- what comes first goes to the buffer
  have hfill : ∀ k ≤ junk.length, ∀ q : CString, q.length = k →
      memcpy ctx.block ctx.len q = tail ++ q ++ junk.drop k := by
    intro k hk q hq
    rw [hblock, ← take_append_drop k junk, ← append_assoc,
      memcpy_append htail (by rw [length_take, hq]; omega), take_append_drop]
  unfold sha256_update
  by_cases hshort : ctx.len + p.length < 64
  · have hmin : min p.length (64 - ctx.len) = p.length := by omega
    have hlt : (tail ++ p).length < 64 := by
      rw [length_append]
      omega
    simp only [hshort, if_true, hmin, take_length]
    refine ⟨_, rfl, ?_, ⟨?_, ?_⟩, ?_, ?_⟩
    · rw [hdigest, digest_of_lt compress hlt]
      exact h.h
    · rw [length_memcpy (by rw [h.block.1]; omega)]
      exact h.block.1
    · rw [hfill p.length (by omega) p rfl, hrest, rest_of_lt hlt, take_left']
      rw [length_append, htail]
    · simp only [length_append]
      omega
    · simp only [length_append]
      omega
  · have hmin : min p.length (64 - ctx.len) = 64 - ctx.len := by omega
    have hge : 64 ≤ (tail ++ p).length := by
      rw [length_append]
      omega
    have hmany : (p.length - (64 - ctx.len)) / 64 ≤ 2 ^ 25 := by omega
    have hhead : (tail ++ p).take 64 = tail ++ p.take (64 - ctx.len) := by
      rw [take_append, take_of_length_le (by omega), htail]
    have hdrop : (tail ++ p).drop 64 = p.drop (64 - ctx.len) := by
      rw [List.drop_append, List.drop_eq_nil_of_le (by omega), htail, List.nil_append]
    have hblock1 := hfill (64 - ctx.len) (by omega) (p.take (64 - ctx.len)) (by rw [length_take]; omega)
    have hcomp : blocks compress 64 1 ctx.h (tail ++ p.take (64 - ctx.len) ++ junk.drop (64 - ctx.len)) =
        compress ctx.h ((tail ++ p).take 64) := by
      rw [blocks, blocks, hhead, take_left']
      rw [length_append, length_take]
      omega
    simp only [hshort, if_false, hmin, hblock1, sha256_transf_some (by decide : 1 ≤ 2 ^ 25), sha256_transf_some hmany,
      Option.bind_eq_bind, Option.bind_some]
    have hwaits : ((p.drop (64 - ctx.len)).drop ((p.length - (64 - ctx.len)) / 64 * 64)).take
        ((p.length - (64 - ctx.len)) % 64) = rest 64 (m ++ p) := by
      rw [hrest, rest_cons hpos hge, hdrop, rest, length_drop, take_of_length_le]
      rw [length_drop, length_drop]
      omega
    have hlong : (rest 64 (m ++ p)).length = (p.length - (64 - ctx.len)) % 64 := by
      rw [length_rest, length_append]
      omega
    refine ⟨_, rfl, ?_, ⟨?_, ?_⟩, ?_, ?_⟩
    · rw [hdigest, ← h.h, digest_cons compress hpos hge, hdrop, digest, length_drop, ← hcomp]
    · simp only [hwaits]
      rw [length_memcpy]
      · simp only [length_append, length_take, length_drop]
        omega
      · simp only [length_append, length_take, length_drop]
        omega
    · simp only [hwaits, memcpy, take_zero, nil_append]
      rw [take_left' hlong]
    · simp only [length_append]
      omega
    · simp only [length_append]
      omega

/-- **The end of a text**: the padding, with a length of four bytes. -/
theorem sha256_final_eq (h : Has ctx m) :
    sha256_final ctx = some (shortLength m) := by
  obtain ⟨junk, hblock, htail, hjunk⟩ := h.buffer
  have hlen := h.len
  set tail := rest 64 m
  set block_nb := 1 + if 64 - 9 < ctx.len % 64 then 1 else 0 with hnb
  have hfew : block_nb ≤ 2 ∧ block_nb * 64 = ctx.len + 1 + (zeros m.length + 4) + 4 := by
    rw [hnb, zeros]
    split_ifs <;> omega
  obtain ⟨hfew, hfull⟩ := hfew
  set k := zeros m.length
  have hzeros : List.replicate (block_nb * 64 - ctx.len) (0 : UInt8) =
      [0] ++ List.replicate (k + 4) 0 ++ List.replicate 4 0 := by
    rw [← replicate_one, replicate_append_replicate, replicate_append_replicate]
    congr 1
    omega
  have hlow : UInt32.ofNat ((ctx.tot_len + ctx.len) * 8) = UInt32.ofNat (8 * m.length) := by
    rw [h.tot_len, h.len, Nat.div_add_mod', Nat.mul_comm]
  set c := junk.drop (block_nb * 64 - ctx.len)
  -- the buffer, step by step
  have h1 : memcpy ctx.block ctx.len (List.replicate (block_nb * 64 - ctx.len) 0) =
      tail ++ ([0] ++ List.replicate (k + 4) 0 ++ List.replicate 4 0) ++ c := by
    rw [hblock, ← take_append_drop (block_nb * 64 - ctx.len) junk, ← append_assoc, memcpy_append htail, hzeros]
    rw [length_take, length_replicate]
    omega
  have h2 : memcpy (tail ++ ([0] ++ List.replicate (k + 4) 0 ++ List.replicate 4 0) ++ c) ctx.len [0x80] =
      tail ++ [0x80] ++ (List.replicate (k + 4) 0 ++ List.replicate 4 0 ++ c) := by
    have hcopy : memcpy (tail ++ [0] ++ (List.replicate (k + 4) 0 ++ List.replicate 4 0 ++ c)) ctx.len [0x80] =
        tail ++ [0x80] ++ (List.replicate (k + 4) 0 ++ List.replicate 4 0 ++ c) := memcpy_append htail rfl
    simpa only [append_assoc] using hcopy
  set u := UNPACK32 (UInt32.ofNat (8 * m.length)) with hlast
  have hu : u.length = 4 := rfl
  have h3 : memcpy (tail ++ [0x80] ++ (List.replicate (k + 4) 0 ++ List.replicate 4 0 ++ c)) (block_nb * 64 - 4) u =
      tail ++ 0x80 :: (List.replicate (k + 4) 0 ++ u) ++ c := by
    have hplace : (tail ++ [0x80] ++ List.replicate (k + 4) (0 : UInt8)).length = block_nb * 64 - 4 := by
      simp only [length_append, length_singleton, length_replicate]
      omega
    have hcopy := memcpy_append (b := List.replicate 4 0) (c := c) hplace (by rw [hu, length_replicate])
    simpa only [append_assoc, singleton_append, cons_append, nil_append] using hcopy
  have hpadded : (tail ++ 0x80 :: (List.replicate (k + 4) 0 ++ u)).length = block_nb * 64 := by
    simp only [length_append, length_cons, length_replicate]
    omega
  unfold sha256_final
  simp only [← hnb, h1, h2, hlow, ← hlast, h3, sha256_transf_some (le_trans hfew (by decide : 2 ≤ 2 ^ 25)),
    Option.bind_eq_bind, Option.bind_some]
  rw [shortLength, digest_padded compress (by decide) hpadded sha256_h0 c, h.h]
  rfl

/-! ## A text in parts -/

/-- **All parts** are those of the whole text. -/
theorem foldlM_has (h : Has ctx m) {parts : List CString} (hparts : ∀ p ∈ parts, p.length < 2 ^ 31) :
    ∃ ctx', parts.foldlM sha256_update ctx = some ctx' ∧ Has ctx' (m ++ parts.flatten) := by
  induction parts generalizing ctx m with
  | nil => exact ⟨ctx, rfl, by rwa [flatten_nil, append_nil]⟩
  | cons p parts ih =>
    obtain ⟨ctx1, hp, h1⟩ := sha256_update_has h (hparts p mem_cons_self)
    obtain ⟨ctx2, hrun, h2⟩ := ih h1 fun q hq => hparts q (mem_cons_of_mem _ hq)
    refine ⟨ctx2, ?_, by rwa [flatten_cons, ← append_assoc]⟩
    rw [foldlM_cons, hp]
    exact hrun

theorem UNPACK32_eq_zero_iff (x : UInt32) : UNPACK32 x = List.replicate 4 0 ↔ x = 0 := by
  have hbyte : ∀ (y : UInt32) (k : ℕ), k < 32 → ((y >>> UInt32.ofNat k).toUInt8 = 0 ↔ y.toNat / 2 ^ k % 256 = 0) := by
    intro y k hk
    rw [← UInt8.toNat_inj, UInt32.toNat_toUInt8, UInt32.toNat_shiftRight,
      UInt32.toNat_ofNat_of_lt' (hk.trans (by decide)), Nat.mod_eq_of_lt hk, Nat.shiftRight_eq_div_pow]
    rfl
  have h0 := hbyte x 0 (by decide)
  have h8 := hbyte x 8 (by decide)
  have h16 := hbyte x 16 (by decide)
  have h24 := hbyte x 24 (by decide)
  have hlt := x.toNat_lt
  refine ⟨fun h => ?_, fun h => by rw [h]; rfl⟩
  obtain ⟨e24, e16, e8, e0, -⟩ : (x >>> 24).toUInt8 = 0 ∧ (x >>> 16).toUInt8 = 0 ∧ (x >>> 8).toUInt8 = 0 ∧
      x.toUInt8 = 0 ∧ True := by simpa [UNPACK32, List.replicate] using h
  have f24 := h24.1 e24
  have f16 := h16.1 e16
  have f8 := h8.1 e8
  have f0 := h0.1 (by simpa using e0)
  rw [← UInt32.toNat_inj]
  simp only [UInt32.toNat_zero]
  omega

theorem padding_eq_iff (len : ℕ) : padding len =
      0x80 :: (List.replicate (zeros len + 4) 0 ++ UNPACK32 (UInt32.ofNat (8 * len))) ↔
    UInt32.ofNat (8 * len / 2 ^ 32) = 0 := by
  rw [padding, cons_inj_right, replicate_add, append_cancel_right_eq, append_cancel_left_eq]
  exact UNPACK32_eq_zero_iff _

theorem sha256_parts {block : CString} (hblock : block.length = 128) {parts : List CString}
    (hparts : ∀ p ∈ parts, p.length < 2 ^ 31) :
    hashParts block parts = some (shortLength parts.flatten) ∧
      (padding parts.flatten.length =
          0x80 :: (List.replicate (zeros parts.flatten.length + 4) 0 ++
            UNPACK32 (UInt32.ofNat (8 * parts.flatten.length))) ↔
        8 * parts.flatten.length / 2 ^ 32 % 2 ^ 32 = 0) ∧
      (parts.flatten.length < 2 ^ 29 → hashParts block parts = some (standard parts.flatten)) := by
  obtain ⟨ctx, hrun, hctx⟩ := foldlM_has (has_init hblock) hparts
  rw [nil_append] at hctx
  have hhash : hashParts block parts = some (shortLength parts.flatten) := by
    rw [hashParts, hrun]
    exact sha256_final_eq hctx
  have hhigh : ∀ x : ℕ, UInt32.ofNat x = 0 ↔ x % 2 ^ 32 = 0 := fun x => by
    rw [← UInt32.toNat_inj, UInt32.toNat_ofNat']
    rfl
  refine ⟨hhash, (padding_eq_iff _).trans (hhigh _), fun hlen => ?_⟩
  rw [hhash, shortLength, standard, (padding_eq_iff _).2 ((hhigh _).2 (by omega))]

theorem sha256_parts_abc :
    hashParts (List.replicate 128 0xFF) [lit "a", lit "b", lit "c"] = some (standard (lit "abc")) :=
  (sha256_parts length_replicate (by decide)).2.2 (by decide)

example : (standard (lit "abc")).take 4 = [0xba, 0x78, 0x16, 0xbf] := by decide +kernel

end ZNC.SHA256
