/-
Texts that pass `FilterOutgoing` and then `FilterIncoming` of `modules/crypt.cpp`, with `CString::Crypt` of
`src/ZNCString.cpp`.

The text goes out behind eight bytes of an ivec, filled up with zeros to whole blocks, encrypted, as base64 and behind a
marker. It comes in through the same steps backwards: the marker and the eight bytes are cut off, and what is left ends
at its first NUL.

The filter takes the nick prefix off the target before it looks for the key. So a message whose target begins with the
prefix goes to somebody else, under the key of that one or under none.

Model: OpenSSL is `BF_cbc_encrypt`. All that is asked of it is `Inverts`: whole blocks stay as long as they are, and
decryption inverts encryption.

Results:
- `decrypt_encrypt`: a text is decrypted again, up to the zeros that fill the last block;
- `outgoing_incoming`: the round trip of a text under the key of the one that the message goes to, and without a key;
- `prefix_misleads`: a nick prefix that takes the '#' off a channel.
-/
import ZNC.BufferReplay
import ZNC.Crypt

namespace ZNC.Crypt

open CString CCryptMod List

/-! ## Model -/

/-- `BF_set_key` and `BF_cbc_encrypt`: the key, the ivec, whether to encrypt, and the blocks -/
structure Blowfish where
  BF_cbc_encrypt : CString → CString → Bool → CString → CString

namespace Blowfish

/-- the zeros behind a text of this length -/
def pad (uLen : ℕ) : ℕ := if uLen % 8 = 0 then 0 else 8 - uLen % 8

def crypt (bf : Blowfish) (s sPass : CString) (bEncrypt : Bool) (sIvec : CString) : CString :=
  let szIvec := if 8 ≤ sIvec.length then sIvec.take 8 else List.replicate 8 0
  bf.BF_cbc_encrypt sPass szIvec bEncrypt (s ++ List.replicate (pad s.length) 0)

/-- `Encrypt(sPass)` and `Decrypt(sPass)` -/
def cipher (bf : Blowfish) : Cipher where
  Encrypt s sPass := bf.crypt s sPass true []
  Decrypt s sPass := bf.crypt s sPass false []

/-- what the module relies on -/
structure Inverts (bf : Blowfish) : Prop where
  length : ∀ sKey szIvec bEncrypt s, 8 ∣ s.length → (bf.BF_cbc_encrypt sKey szIvec bEncrypt s).length = s.length
  inverse : ∀ sKey szIvec s, 8 ∣ s.length →
    bf.BF_cbc_encrypt sKey szIvec false (bf.BF_cbc_encrypt sKey szIvec true s) = s

end Blowfish

open Blowfish

/-! ## What should hold -/

/-- the text of a message comes back from the incoming filter of `sFrom` -/
def ComesBack (cipher : Cipher) (m : CCryptMod) (sFrom : CString) (k : ETextKind) (Msg Msg' : CMessage) : Prop :=
  ∀ Nick, ∃ Nick', m.filterIncoming cipher sFrom (some Nick) (k.getText Msg') = some (some Nick', k.getText Msg)

/-- every text to a target with a key comes back, whatever the nick prefix -/
def RoundTrips (cipher : Cipher) : Prop :=
  ∀ (m : CCryptMod) (k : ETextKind) (Msg : CMessage) (sIvec sKey : CString), sIvec.length = 8 →
    m.m_mssRegistry.find (Msg.getParam 0).asLower = some sKey → 0 ∉ k.getText Msg →
      (k.getText Msg).startsWith (lit "``") = false →
        ∃ Msg', m.filterOutgoing cipher k Msg sIvec = some Msg' ∧ ComesBack cipher m (Msg.getParam 0) k Msg Msg'

/-! ## The cipher -/

theorem dvd_pad (s : CString) : 8 ∣ (s ++ List.replicate (pad s.length) (0 : UInt8)).length := by
  rw [length_append, length_replicate, pad]
  split_ifs <;> omega

theorem decrypt_encrypt {bf : Blowfish} (hbf : bf.Inverts) (s sKey : CString) :
    bf.cipher.Decrypt (bf.cipher.Encrypt s sKey) sKey = s ++ List.replicate (pad s.length) 0 := by
  have hwhole : 8 ∣ (bf.cipher.Encrypt s sKey).length := by
    refine (hbf.length _ _ _ _ (dvd_pad s)).symm ▸ dvd_pad s
  have hnone : pad (bf.cipher.Encrypt s sKey).length = 0 := if_pos (Nat.dvd_iff_mod_eq_zero.1 hwhole)
  calc bf.cipher.Decrypt (bf.cipher.Encrypt s sKey) sKey
      = bf.BF_cbc_encrypt sKey (List.replicate 8 0) false (bf.cipher.Encrypt s sKey) := by
        change bf.BF_cbc_encrypt sKey (List.replicate 8 0) false (_ ++ List.replicate (pad _) 0) = _
        rw [hnone, replicate_zero, append_nil]
    _ = s ++ List.replicate (pad s.length) 0 := hbf.inverse _ _ _ (dvd_pad s)

theorem cStr_drop_decrypt {bf : Blowfish} (hbf : bf.Inverts) {sIvec s : CString} (hlen : sIvec.length = 8) (h0 : 0 ∉ s)
    (sKey : CString) : cStr ((bf.cipher.Decrypt (bf.cipher.Encrypt (sIvec ++ s) sKey) sKey).drop 8) = s := by
  rw [decrypt_encrypt hbf, append_assoc, ← hlen, drop_left, cStr_append h0]
  cases pad (sIvec ++ s).length with
  | zero => exact append_nil s
  | succ n =>
    rw [replicate_succ, cStr, takeWhile_cons_of_neg (by decide), append_nil]

/-! ## The marker -/

def sMarker : CString := lit "+OK *"

theorem marker_spec (s : CString) : (sMarker ++ s).startsWith (lit "+OK *") = true ∧
    (sMarker ++ s).trimPrefix_n (lit "+OK *") = s := by
  have hstart : (sMarker ++ s).startsWith (lit "+OK *") = true := by
    rw [startsWith_iff (by decide), asLower, asLower, map_append]
    exact prefix_append _ _
  refine ⟨hstart, ?_⟩
  rw [trimPrefix_n, if_pos hstart]
  exact drop_left

/-! ## Messages -/

theorem getParam_setParam {m m' : CMessage} {uIdx : UInt32} (h : uIdx.toNat + 1 < 2 ^ 32) {sParam : CString}
    (hset : m.setParam uIdx sParam = some m') (j : UInt32) :
    m'.getParam j = if j = uIdx then sParam else m.getParam j := by
  obtain ⟨m₁, hm₁, -, -, -, hget⟩ := CMessage.setParam_spec m uIdx sParam h
  obtain rfl := Option.some.inj (hm₁.symm.trans hset)
  have hat := hget j.toNat
  simpa only [CMessage.getParam, UInt32.toNat_inj] using hat

theorem getText_setText {k : ETextKind} {m m' : CMessage} {sText : CString} (hset : k.setText m sText = some m') :
    k.getText m' = sText ∧ m'.getParam 0 = m.getParam 0 := by
  have hone := getParam_setParam (by decide) hset 1
  have hzero := getParam_setParam (by decide) hset 0
  rw [if_pos rfl] at hone
  rw [if_neg (by decide)] at hzero
  exact ⟨k.getText_textParam m' sText hone, hzero⟩

theorem getText_setTarget {k : ETextKind} {m m' : CMessage} {sTarget : CString} (hset : m.setParam 0 sTarget = some m') :
    k.getText m' = k.getText m ∧ m'.getParam 0 = sTarget := by
  have hone := getParam_setParam (by decide) hset 1
  have hzero := getParam_setParam (by decide) hset 0
  rw [if_neg (by decide)] at hone
  rw [if_pos rfl] at hzero
  refine ⟨?_, hzero⟩
  cases k with
  | Text => exact hone
  | Notice => exact hone
  | Action => simp only [ETextKind.getText, hone]

/-! ## The filters -/

variable {bf : Blowfish} {cipher : Cipher}

/-- the one that a message goes to: the target without the nick prefix -/
def recipient (m : CCryptMod) (Msg : CMessage) : CString := (Msg.getParam 0).trimPrefix_n m.nickPrefix

theorem filterOutgoing_spec (cipher : Cipher) (m : CCryptMod) (k : ETextKind) (Msg : CMessage) (sIvec : CString)
    (hbypass : (k.getText Msg).startsWith (lit "``") = false) :
    ∃ Msg', m.filterOutgoing cipher k Msg sIvec = some Msg' ∧ Msg'.getParam 0 = recipient m Msg ∧
      k.getText Msg' = match m.m_mssRegistry.find (recipient m Msg).asLower with
        | none => k.getText Msg
        | some sKey => sMarker ++ (cipher.Encrypt (sIvec ++ k.getText Msg) sKey).base64Encode := by
  obtain ⟨Msg₁, hset⟩ := setParam_isSome Msg 0 (by decide) (recipient m Msg)
  obtain ⟨htext, htarget⟩ := getText_setTarget (k := k) hset
  rw [filterOutgoing]
  change ∃ Msg', (Msg.setParam 0 (recipient m Msg)).bind _ = some Msg' ∧ _
  rw [hset, Option.bind_some]
  dsimp only
  rw [htext, if_neg (by rw [hbypass]; exact Bool.false_ne_true)]
  change ∃ Msg', (match m.m_mssRegistry.find (recipient m Msg).asLower with
    | none => some Msg₁
    | some sKey => _) = some Msg' ∧ _
  cases m.m_mssRegistry.find (recipient m Msg).asLower with
  | none => exact ⟨Msg₁, rfl, htarget, htext⟩
  | some sKey =>
    obtain ⟨Msg₂, hsetText⟩ := setText_isSome k Msg₁
      (sMarker ++ (cipher.Encrypt (sIvec ++ k.getText Msg) sKey).base64Encode)
    obtain ⟨htext₂, htarget₂⟩ := getText_setText hsetText
    exact ⟨Msg₂, hsetText, htarget₂.trans htarget, htext₂⟩

theorem filterIncoming_marked (cipher : Cipher) (m : CCryptMod) {sFrom sKey : CString}
    (hkey : m.m_mssRegistry.find sFrom.asLower = some sKey) (Nick : CNick) (s : CString) :
    ∃ Nick', m.filterIncoming cipher sFrom (some Nick) (sMarker ++ s) =
      some (some Nick', cStr ((cipher.Decrypt s.base64Decode sKey).drop 8)) := by
  obtain ⟨hstart, htrim⟩ := marker_spec s
  refine ⟨{ Nick with sNick := m.nickPrefix ++ Nick.sNick }, ?_⟩
  rw [filterIncoming, if_pos hstart]
  dsimp only
  rw [hkey, htrim]
  rfl

theorem filterIncoming_plain (m : CCryptMod) (sFrom : CString) (pNick : Option CNick) {sMessage : CString}
    (hplain : sMessage.startsWith (lit "+OK *") = false) :
    m.filterIncoming cipher sFrom pNick sMessage = some (pNick, sMessage) := by
  rw [filterIncoming, if_neg (by rw [hplain]; exact Bool.false_ne_true)]

/-! ## The round trip -/

/-- **A text comes back** through the two filters: under the key of the one that the message goes to, from any name and
in any module with that key; and without a key, if it does not look like an encrypted one. -/
theorem outgoing_incoming (hbf : bf.Inverts) (m m' : CCryptMod) (k : ETextKind) (Msg : CMessage) (sFrom : CString)
    {sIvec : CString} (hivec : sIvec.length = 8) (htext : 0 ∉ k.getText Msg)
    (hbypass : (k.getText Msg).startsWith (lit "``") = false) :
    ∃ Msg', m.filterOutgoing bf.cipher k Msg sIvec = some Msg' ∧ Msg'.getParam 0 = recipient m Msg ∧
      (∀ sKey, m.m_mssRegistry.find (recipient m Msg).asLower = some sKey →
        m'.m_mssRegistry.find sFrom.asLower = some sKey → ComesBack bf.cipher m' sFrom k Msg Msg') ∧
      (m.m_mssRegistry.find (recipient m Msg).asLower = none → (k.getText Msg).startsWith (lit "+OK *") = false →
        ComesBack bf.cipher m' sFrom k Msg Msg') := by
  obtain ⟨Msg', hout, htarget, hsent⟩ := filterOutgoing_spec bf.cipher m k Msg sIvec hbypass
  refine ⟨Msg', hout, htarget, ?_, ?_⟩
  · intro sKey hkey hkey' Nick
    rw [hkey] at hsent
    obtain ⟨Nick', hin⟩ := filterIncoming_marked bf.cipher m' hkey' Nick
      (bf.cipher.Encrypt (sIvec ++ k.getText Msg) sKey).base64Encode
    rw [base64Decode_encode, cStr_drop_decrypt hbf hivec htext] at hin
    exact ⟨Nick', hsent ▸ hin⟩
  · intro hkey hplain Nick
    rw [hkey] at hsent
    exact ⟨Nick, by rw [hsent, filterIncoming_plain m' sFrom (some Nick) hplain]⟩

/-! ## Samples -/

/-- eight bytes of an ivec and a text that does not fill its block -/
def sampleBlocks : CString := [1, 2, 3, 4, 5, 6, 7, 8] ++ lit "hello" ++ [0, 0, 0]

/-- what they are encrypted to with the key of the sample -/
def sampleCipher : CString :=
  [0xd0, 0x35, 0x0b, 0x43, 0x4b, 0xba, 0xb4, 0x7c, 0x7d, 0xc3, 0xe9, 0x8f, 0xac, 0xfd, 0x83, 0xa6]

/-- a cipher for these blocks; it leaves all others as they are -/
def swapping : Blowfish where
  BF_cbc_encrypt _ _ _ s := if s = sampleBlocks then sampleCipher else if s = sampleCipher then sampleBlocks else s

theorem swapping_inverts : swapping.Inverts where
  length sKey szIvec bEncrypt s _ := by
    change (if s = sampleBlocks then sampleCipher else if s = sampleCipher then sampleBlocks else s).length = _
    split_ifs with hblocks hcipher
    · rw [hblocks]
      decide
    · rw [hcipher]
      decide
    · rfl
  inverse sKey szIvec s _ := by
    have hne : sampleCipher ≠ sampleBlocks := by decide
    simp only [swapping]
    split_ifs <;> simp_all

/-- the module with a key for one name -/
def oneKey (sName sKey : CString) : CCryptMod := ⟨OrdMap.empty.insert sName sKey, [], lit "*", [], []⟩

def privmsg (sTarget sText : CString) : CMessage :=
  { CMessage.blank CMessage.stoppedClock with sCommand := lit "PRIVMSG", vsParams := [sTarget, sText] }

theorem outgoing_incoming_hello :
    ∃ Msg', (oneKey (lit "#c") (lit "0123456789abcdef")).filterOutgoing swapping.cipher .Text
        (privmsg (lit "#c") (lit "hello")) [1, 2, 3, 4, 5, 6, 7, 8] = some Msg' ∧ Msg'.getParam 0 = lit "#c" ∧
      ComesBack swapping.cipher (oneKey (lit "#c") (lit "0123456789abcdef")) (lit "#C") .Text
        (privmsg (lit "#c") (lit "hello")) Msg' := by
  obtain ⟨Msg', hout, htarget, hback, -⟩ := outgoing_incoming swapping_inverts
    (oneKey (lit "#c") (lit "0123456789abcdef")) (oneKey (lit "#c") (lit "0123456789abcdef")) .Text
    (privmsg (lit "#c") (lit "hello")) (lit "#C") (show ([1, 2, 3, 4, 5, 6, 7, 8] : CString).length = 8 from rfl)
    (by decide) (by decide)
  exact ⟨Msg', hout, htarget.trans (by decide), hback (lit "0123456789abcdef") (by decide) (by decide)⟩

/-- a nick prefix that is the '#' of a channel -/
def hashPrefix : CCryptMod :=
  ⟨(OrdMap.empty.insert (lit "@nick-prefix@") (lit "#")).insert (lit "#c") (lit "0123456789abcdef"), [], lit "*", [],
    []⟩

/-- **A prefix misleads the filter**: the text to the channel goes to somebody without a key, and what comes from the
channel is decrypted. -/
theorem prefix_misleads : swapping.Inverts ∧ ¬ RoundTrips swapping.cipher := by
  refine ⟨swapping_inverts, fun hall => ?_⟩
  obtain ⟨Msg', hout, hback⟩ := hall hashPrefix .Text (privmsg (lit "#c") (lit "+OK *")) [1, 2, 3, 4, 5, 6, 7, 8]
    (lit "0123456789abcdef") rfl (by decide) (by decide) (by decide)
  obtain ⟨Nick', hin⟩ := hback CNick.empty
  have hsent : (hashPrefix.filterOutgoing swapping.cipher .Text (privmsg (lit "#c") (lit "+OK *"))
      [1, 2, 3, 4, 5, 6, 7, 8]).map (fun Msg => ETextKind.Text.getText Msg) = some (lit "+OK *") := by decide
  rw [hout, Option.map_some, Option.some.injEq] at hsent
  rw [hsent] at hin
  have hlost : (hashPrefix.filterIncoming swapping.cipher (lit "#c") (some CNick.empty) (lit "+OK *")).map Prod.snd =
      some [] := by decide
  have htarget : (privmsg (lit "#c") (lit "+OK *")).getParam 0 = lit "#c" := rfl
  rw [htarget] at hin
  rw [hin, Option.map_some] at hlost
  have hempty : lit "+OK *" = [] := Option.some.inj hlost
  exact absurd hempty (by decide)

end ZNC.Crypt
