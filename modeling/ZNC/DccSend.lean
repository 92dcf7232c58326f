/-
Sending a file by DCC: `CDCCSock` of `modules/dcc.cpp`, for a socket that sends.

The receiver acknowledges the bytes that it has got so far, as numbers of four bytes. An acknowledgement that is no more
than 64 KiB behind what was sent lets the next packet go. The sum of the test is one of 32 bits, so behind the last 64
KiB below 4 GiB it starts again at zero.

Model: the `n`-th call of `SendPacket` finds a write buffer of some length and may read fewer bytes than it asks for, or
fail; a read that fails leaves its place in the file. The content of the file does not change. What was given to `Write`
is kept, and the number of calls of `SendPacket`.

Results:
- `ntohl_htonl`: a number that is sent is read back;
- `acks_trigger_iff`: when every acknowledgement does what it should;
- `acks_stall`: the end of a file of 4 GiB.
-/
import ZNC.CString
import ZNC.Lib.Journal

namespace ZNC.DccSend

open CString Journal List

/-! ## Model -/

/-- a `CFile` that is open for reading, of a size that `OpenFile` lets through -/
structure CFile where
  sData : CString
  /-- the place of the next byte to be read -/
  uPos : ℕ
  small : sData.length ≤ 0xffffffff

/-- `Read(szBuf, 4096)`, which may get fewer bytes -/
def CFile.read (f : CFile) (uBytes : ℕ) : CString := (f.sData.drop f.uPos).take (min uBytes 4096)

def CFile.seek (f : CFile) (uPos : ℕ) : CFile := { f with uPos := uPos }

structure CDCCSock where
  sRemoteNick : CString
  sFileName : CString
  sLocalFile : CString
  sSendBuf : CString
  uFileSize : UInt64
  uBytesSoFar : UInt64
  pFile : Option CFile
  bClosed : Bool
  /-- the lines of `PutModule` -/
  vsModule : VCString
  /-- the bytes given to `Write` -/
  sWritten : CString
  /-- the calls of `SendPacket` -/
  uPackets : ℕ

/-- what a call of `SendPacket` finds: the length of the write buffer, and how many bytes it can read, if it can -/
structure Answer where
  uWriteBuffer : ℕ
  uRead : Option ℕ

/-- what is there under a name -/
structure Disk where
  bReg : Bool
  bOpens : Bool
  sShortName : CString
  sData : CString

namespace CDCCSock

/-- the constructor for a file to be sent -/
def init (sRemoteNick sLocalFile : CString) : CDCCSock := ⟨sRemoteNick, [], sLocalFile, [], 0, 0, none, false, [], [], 0⟩

/-- a line about this transfer -/
def putModule (s : CDCCSock) (sText : CString) : CDCCSock :=
  { s with vsModule := s.vsModule ++
      [lit "Sending [" ++ s.sFileName ++ lit "] to [" ++ s.sRemoteNick ++ lit "]: " ++ sText] }

def close (s : CDCCSock) : CDCCSock := { s with bClosed := true }

/-- `OpenFile(false)`, and whether there is a file -/
def openFile (s : CDCCSock) (disk : Disk) : Bool × CDCCSock :=
  if s.pFile.isSome ∨ s.sLocalFile = [] then (false, s.putModule (lit "Unable to open file."))
  else if !disk.bReg then (false, s.putModule (lit "Not a file."))
  else if !disk.bOpens then (false, s.putModule (lit "Could not open file."))
  else if h : 0xffffffff < disk.sData.length then (false, s.putModule (lit "File too large (>4 GiB)."))
  else
    (true, { s with
      pFile := some ⟨disk.sData, 0, not_lt.1 h⟩
      uFileSize := UInt64.ofNat disk.sData.length
      sFileName := disk.sShortName })

/-- `Seek(uPos)`; `bSeeks` is what the file answers -/
def seek (s : CDCCSock) (bSeeks : Bool) (uPos : UInt64) : Bool × CDCCSock :=
  match s.pFile with
  | some f => if bSeeks then (true, { s with pFile := some (f.seek uPos.toNat), uBytesSoFar := uPos }) else (false, s)
  | none => (false, s)

/-- `GetSockObj`: the socket of the connection that the listener accepts -/
def getSockObj (s : CDCCSock) : CDCCSock :=
  { init s.sRemoteNick s.sLocalFile with
    uFileSize := s.uFileSize
    pFile := s.pFile
    sFileName := s.sFileName
    uBytesSoFar := s.uBytesSoFar }

def sendPacket (env : ℕ → Answer) (s : CDCCSock) : CDCCSock :=
  let answer := env s.uPackets
  let s := { s with uPackets := s.uPackets + 1 }
  match s.pFile with
  | none => (s.putModule (lit "File closed prematurely.")).close
  | some f =>
    if 1024 * 1024 < answer.uWriteBuffer then s
    else
      match answer.uRead with
      | none => (s.putModule (lit "Error reading from file.")).close
      | some uBytes =>
        let szBuf := f.read uBytes
        if 0 < szBuf.length then
          { s with
            pFile := some (f.seek (f.uPos + szBuf.length))
            sWritten := s.sWritten ++ szBuf
            uBytesSoFar := s.uBytesSoFar + UInt64.ofNat szBuf.length }
        else s

def connected (env : ℕ → Answer) (s : CDCCSock) : CDCCSock := (s.putModule (lit "Transfer started.")).sendPacket env

/-- one acknowledgement -/
def ack (env : ℕ → Answer) (s : CDCCSock) (iRemoteSoFar : UInt32) : CDCCSock :=
  if s.uBytesSoFar ≤ (iRemoteSoFar + 65536).toUInt64 then s.sendPacket env else s

end CDCCSock

/-- `ntohl` of four bytes -/
def ntohl (b0 b1 b2 b3 : UInt8) : UInt32 :=
  UInt32.ofNat (b0.toNat * 2 ^ 24 + b1.toNat * 2 ^ 16 + b2.toNat * 2 ^ 8 + b3.toNat)

namespace CDCCSock

/-- the loop over `m_sSendBuf` -/
def readLoop (env : ℕ → Answer) : CString → CDCCSock → CDCCSock
  | b0 :: b1 :: b2 :: b3 :: sSendBuf, s => readLoop env sSendBuf (s.ack env (ntohl b0 b1 b2 b3))
  | sSendBuf, s => { s with sSendBuf := sSendBuf }

def readData (env : ℕ → Answer) (s : CDCCSock) (data : CString) : CDCCSock :=
  match s.pFile with
  | none => (s.putModule (lit "File not open!")).close
  | some _ => readLoop env (s.sSendBuf ++ data) s

end CDCCSock

/-! ## Statement -/

/-- a number in network byte order -/
def htonl (a : UInt32) : CString :=
  [UInt8.ofNat (a.toNat / 2 ^ 24), UInt8.ofNat (a.toNat / 2 ^ 16), UInt8.ofNat (a.toNat / 2 ^ 8), UInt8.ofNat a.toNat]

/-- the listener has the file open, to be sent from `uOffset` on -/
structure Opened (s : CDCCSock) (sData : CString) (uOffset : ℕ) : Prop where
  file : ∃ small, s.pFile = some ⟨sData, uOffset, small⟩
  bytes : s.uBytesSoFar.toNat = uOffset

/-- the acknowledgement makes a call of `SendPacket` -/
def Triggers (env : ℕ → Answer) (s : CDCCSock) (a : UInt32) : Prop := (s.ack env a).uPackets = s.uPackets + 1

/-- the receiver acknowledges no more than was sent -/
def Truthful (env : ℕ → Answer) (s : CDCCSock) (acks : List UInt32) : Prop :=
  Along (CDCCSock.ack env) (fun _ s a => a.toNat ≤ s.uBytesSoFar.toNat) acks s

/-- a transfer does what it should: every acknowledgement within 64 KiB lets a packet go, however the bytes were read,
and what was written is a part of the file from the offset on -/
structure Transfers (env : ℕ → Answer) (s : CDCCSock) (sData : CString) (uOffset : ℕ) (chunks : List CString)
    (acks : List UInt32) (sRest : CString) : Prop where
  handled : chunks.foldl (CDCCSock.readData env) s = { acks.foldl (CDCCSock.ack env) s with sSendBuf := sRest }
  triggered : Along (CDCCSock.ack env) (fun _ s a => s.uBytesSoFar.toNat ≤ a.toNat + 65536 → Triggers env s a) acks s
  written : (chunks.foldl (CDCCSock.readData env) s).sWritten <+: sData.drop uOffset

/-- none of the acknowledgements reaches the last 64 KiB below 4 GiB, unless it is too far behind anyway -/
def Below (env : ℕ → Answer) (s : CDCCSock) (acks : List UInt32) : Prop :=
  Along (CDCCSock.ack env) (fun _ s a => a.toNat + 65536 < 2 ^ 32 ∨ a.toNat + 65536 < s.uBytesSoFar.toNat) acks s

/-! ## Acknowledgements in the bytes that are read -/

theorem ntohl_htonl (a : UInt32) : ntohl (UInt8.ofNat (a.toNat / 2 ^ 24)) (UInt8.ofNat (a.toNat / 2 ^ 16))
    (UInt8.ofNat (a.toNat / 2 ^ 8)) (UInt8.ofNat a.toNat) = a := by
  have hlt := a.toNat_lt
  apply UInt32.toNat.inj
  simp only [ntohl, UInt8.toNat_ofNat', UInt32.toNat_ofNat']
  omega

namespace CDCCSock

variable {env : ℕ → Answer}

theorem sendPacket_frame (env : ℕ → Answer) (s : CDCCSock) : (s.sendPacket env).uPackets = s.uPackets + 1 ∧
    (s.sendPacket env).pFile.isSome = s.pFile.isSome ∧
    ∀ sBuf, sendPacket env { s with sSendBuf := sBuf } = { s.sendPacket env with sSendBuf := sBuf } := by
  unfold sendPacket
  dsimp only
  cases hfile : s.pFile with
  | none => exact ⟨rfl, by simp [close, putModule], fun _ => rfl⟩
  | some f =>
    split_ifs
    · exact ⟨rfl, by simp, fun _ => rfl⟩
    · cases (env s.uPackets).uRead with
      | none => exact ⟨rfl, by simp [close, putModule], fun _ => rfl⟩
      | some uBytes =>
        dsimp only
        split_ifs
        · exact ⟨rfl, rfl, fun _ => rfl⟩
        · exact ⟨rfl, by simp, fun _ => rfl⟩

theorem sendPacket_sSendBuf (s : CDCCSock) : (s.sendPacket env).sSendBuf = s.sSendBuf := by
  have hsame := congrArg CDCCSock.sSendBuf ((sendPacket_frame env s).2.2 s.sSendBuf)
  exact hsame

theorem ack_frame (s : CDCCSock) (a : UInt32) : (s.ack env a).pFile.isSome = s.pFile.isSome ∧
    ∀ sBuf, ack env { s with sSendBuf := sBuf } a = { s.ack env a with sSendBuf := sBuf } := by
  unfold ack
  dsimp only
  split
  · exact (sendPacket_frame env s).2
  · exact ⟨rfl, fun _ => rfl⟩

theorem readLoop_sSendBuf (x sBuf : CString) (s : CDCCSock) :
    readLoop env x { s with sSendBuf := sBuf } = readLoop env x s := by
  induction x, s using readLoop.induct env with
  | case1 b0 b1 b2 b3 x s ih => rw [readLoop, readLoop, (ack_frame s _).2, ih]
  | case2 x s hshort => rw [readLoop.eq_2 env x s hshort, readLoop.eq_2 env x _ hshort]

/-- **A read that follows another one** goes on where that one stopped. -/
theorem readLoop_append (env : ℕ → Answer) (x y : CString) (s : CDCCSock) : readLoop env (x ++ y) s =
    readLoop env ((readLoop env x s).sSendBuf ++ y) (readLoop env x s) := by
  induction x, s using readLoop.induct env with
  | case1 b0 b1 b2 b3 x s ih => simpa only [cons_append, readLoop] using ih
  | case2 x s hshort =>
    have hx : readLoop env x s = { s with sSendBuf := x } := readLoop.eq_2 env x s hshort
    rw [hx]
    exact (readLoop_sSendBuf (x ++ y) x s).symm

theorem readLoop_htonl (acks : List UInt32) {sRest : CString} (hrest : sRest.length < 4) (s : CDCCSock) :
    readLoop env (acks.flatMap htonl ++ sRest) s = { acks.foldl (ack env) s with sSendBuf := sRest } := by
  induction acks generalizing s with
  | nil =>
    refine readLoop.eq_2 env sRest s fun b0 b1 b2 b3 sSendBuf h => ?_
    rw [h] at hrest
    simp only [length_cons] at hrest
    omega
  | cons a acks ih =>
    calc readLoop env ((a :: acks).flatMap htonl ++ sRest) s
        = readLoop env (acks.flatMap htonl ++ sRest) (s.ack env (ntohl (UInt8.ofNat (a.toNat / 2 ^ 24))
            (UInt8.ofNat (a.toNat / 2 ^ 16)) (UInt8.ofNat (a.toNat / 2 ^ 8)) (UInt8.ofNat a.toNat))) := rfl
      _ = _ := by rw [ntohl_htonl, ih, foldl_cons]

theorem readLoop_isSome (x : CString) (s : CDCCSock) : (readLoop env x s).pFile.isSome = s.pFile.isSome := by
  induction x, s using readLoop.induct env with
  | case1 b0 b1 b2 b3 x s ih => exact ih.trans (ack_frame s _).1
  | case2 x s hshort => rw [readLoop.eq_2 env x s hshort]

theorem readData_eq {s : CDCCSock} (hfile : s.pFile.isSome = true) (data : CString) :
    s.readData env data = readLoop env (s.sSendBuf ++ data) s := by
  unfold readData
  cases hf : s.pFile with
  | none => simp [hf] at hfile
  | some f => rfl

theorem foldl_readData {s : CDCCSock} (hfile : s.pFile.isSome = true) (hbuf : readLoop env s.sSendBuf s = s)
    (chunks : List CString) : chunks.foldl (readData env) s = readLoop env (s.sSendBuf ++ chunks.flatten) s := by
  induction chunks generalizing s with
  | nil => rw [flatten_nil, append_nil, hbuf, foldl_nil]
  | cons data chunks ih =>
    rw [foldl_cons, readData_eq hfile, flatten_cons, ← append_assoc,
      readLoop_append env (s.sSendBuf ++ data) chunks.flatten]
    refine ih ((readLoop_isSome _ s).trans hfile) ?_
    have hagain := readLoop_append env (s.sSendBuf ++ data) [] s
    rwa [append_nil, append_nil, eq_comm] at hagain

/-! ## What is written -/

/-- as much of the file was written as was read of it, from the offset on -/
structure Inv (sData : CString) (uOffset : ℕ) (s : CDCCSock) : Prop where
  file : ∃ small, s.pFile = some ⟨sData, uOffset + s.sWritten.length, small⟩
  bytes : s.uBytesSoFar.toNat = uOffset + s.sWritten.length
  written : s.sWritten <+: sData.drop uOffset

variable {sData : CString} {uOffset : ℕ}

variable {s : CDCCSock}

/-- **One packet.** -/
theorem sendPacket_inv (h : Inv sData uOffset s) : Inv sData uOffset (s.sendPacket env) := by
  obtain ⟨⟨small, hfile⟩, hbytes, hwritten⟩ := h
  unfold sendPacket
  dsimp only
  rw [hfile]
  dsimp only
  split
  · exact ⟨⟨small, rfl⟩, hbytes, hwritten⟩
  · cases (env s.uPackets).uRead with
    | none => exact ⟨⟨small, rfl⟩, hbytes, hwritten⟩
    | some uBytes =>
      dsimp only
      set szBuf := CFile.read ⟨sData, uOffset + s.sWritten.length, small⟩ uBytes with hbuf
      split
      · rename_i hpos
        have hpre : s.sWritten ++ szBuf <+: sData.drop uOffset := by
          obtain ⟨t, ht⟩ := hwritten
          have hrest : sData.drop (uOffset + s.sWritten.length) = t := by
            rw [← drop_drop, ← ht, drop_left]
          rw [hbuf, CFile.read, hrest, ← ht, prefix_append_right_inj]
          exact take_prefix _ _
        have hlen := hpre.length_le
        rw [length_append, length_drop] at hlen
        refine ⟨⟨small, ?_⟩, ?_, hpre⟩
        · simp only [CFile.seek, length_append, Nat.add_assoc]
        · rw [UInt64.toNat_add, hbytes, UInt64.toNat_ofNat', length_append]
          omega
      · exact ⟨⟨small, rfl⟩, hbytes, hwritten⟩

theorem ack_inv (h : Inv sData uOffset s) (a : UInt32) : Inv sData uOffset (s.ack env a) := by
  unfold ack
  split
  · exact sendPacket_inv h
  · exact h

/-- **A run** of acknowledgements. -/
theorem foldl_ack_inv (h : Inv sData uOffset s) (acks : List UInt32) :
    Inv sData uOffset (acks.foldl (ack env) s) := by
  induction acks generalizing s with
  | nil => exact h
  | cons a acks ih => exact ih (ack_inv h a)

theorem sendPacket_uBytesSoFar {f : CFile} (hfile : s.pFile = some f) (uBytes : ℕ)
    (hroom : (env s.uPackets).uWriteBuffer ≤ 1024 * 1024) (hread : (env s.uPackets).uRead = some uBytes)
    (hpos : 0 < (f.read uBytes).length) :
    (s.sendPacket env).uBytesSoFar = s.uBytesSoFar + UInt64.ofNat (f.read uBytes).length := by
  unfold sendPacket
  simp only [hfile, if_neg (not_lt.2 hroom), hread, if_pos hpos]

theorem opened_openFile {sRemoteNick sLocalFile : CString} {disk : Disk}
    (h : ((init sRemoteNick sLocalFile).openFile disk).1 = true) :
    Opened ((init sRemoteNick sLocalFile).openFile disk).2 disk.sData 0 := by
  unfold openFile at h ⊢
  split_ifs at h ⊢
  exact ⟨⟨_, rfl⟩, rfl⟩

theorem opened_seek {bSeeks : Bool} {uPos : UInt64} (h : Opened s sData uOffset) (hseek : (s.seek bSeeks uPos).1 = true) :
    Opened (s.seek bSeeks uPos).2 sData uPos.toNat := by
  obtain ⟨⟨small, hfile⟩, -⟩ := h
  unfold seek at hseek ⊢
  rw [hfile] at hseek ⊢
  cases bSeeks with
  | true => exact ⟨⟨small, rfl⟩, rfl⟩
  | false => cases hseek

theorem connected_inv (env : ℕ → Answer) (h : Opened s sData uOffset) :
    Inv sData uOffset (s.getSockObj.connected env) ∧ (s.getSockObj.connected env).sSendBuf = [] := by
  obtain ⟨⟨small, hfile⟩, hbytes⟩ := h
  have hstart : Inv sData uOffset (s.getSockObj.putModule (lit "Transfer started.")) :=
    ⟨⟨small, hfile⟩, hbytes, nil_prefix⟩
  exact ⟨sendPacket_inv hstart, sendPacket_sSendBuf _⟩

/-! ## Acknowledgements that let a packet go -/

theorem triggers_iff (s : CDCCSock) (a : UInt32) :
    Triggers env s a ↔ s.uBytesSoFar.toNat ≤ (a.toNat + 65536) % 2 ^ 32 := by
  have hsum : (a + 65536).toUInt64.toNat = (a.toNat + 65536) % 2 ^ 32 := by
    rw [UInt32.toNat_toUInt64, UInt32.toNat_add]
    rfl
  rw [Triggers, ack, ← hsum, ← UInt64.le_iff_toNat_le]
  split
  · rename_i hle
    exact iff_of_true (sendPacket_frame env s).1 hle
  · rename_i hno
    exact iff_of_false (by omega) hno

end CDCCSock

open CDCCSock

/-- **When every acknowledgement does what it should**: unless one of them reaches the last 64 KiB below 4 GiB. -/
theorem acks_trigger_iff {listener : CDCCSock} {sData : CString} {uOffset : ℕ} (h : Opened listener sData uOffset)
    (env : ℕ → Answer) {chunks : List CString} {acks : List UInt32} {sRest : CString} (hrest : sRest.length < 4)
    (hchunks : chunks.flatten = acks.flatMap htonl ++ sRest)
    (htrue : Truthful env (listener.getSockObj.connected env) acks) :
    Transfers env (listener.getSockObj.connected env) sData uOffset chunks acks sRest ↔
      Below env (listener.getSockObj.connected env) acks := by
  obtain ⟨hinv, hbuf⟩ := connected_inv env h
  set s := listener.getSockObj.connected env
  have hiff : ∀ (s : CDCCSock) (a : UInt32), a.toNat ≤ s.uBytesSoFar.toNat →
      ((s.uBytesSoFar.toNat ≤ a.toNat + 65536 → Triggers env s a) ↔
        (a.toNat + 65536 < 2 ^ 32 ∨ a.toNat + 65536 < s.uBytesSoFar.toNat)) := by
    intro s a ha
    rw [triggers_iff]
    have hlt := a.toNat_lt
    omega
  have halong := along_congr_of (ack env) (fun _ s a => hiff s a) acks s htrue
  refine ⟨fun ht => halong.1 ht.triggered, fun hbelow => ?_⟩
  obtain ⟨small, hfile⟩ := hinv.file
  have hrun : chunks.foldl (readData env) s = { acks.foldl (ack env) s with sSendBuf := sRest } := by
    have hstart : readLoop env s.sSendBuf s = s := by
      rw [hbuf]
      have hsame : { s with sSendBuf := [] } = s := by
        rw [← hbuf]
      exact hsame
    rw [foldl_readData (by rw [hfile]; rfl) hstart, hbuf, nil_append, hchunks, readLoop_htonl acks hrest]
  refine ⟨hrun, halong.2 hbelow, ?_⟩
  rw [hrun]
  exact (foldl_ack_inv hinv acks).written

/-- packets of 4 KiB -/
def full (_ : ℕ) : Answer := ⟨0, some 4096⟩

/-- a file of three bytes -/
def small : CDCCSock := ((init (lit "joe") (lit "/f")).openFile ⟨true, true, lit "f", [1, 2, 3]⟩).2

/-- it is acknowledged in two reads -/
theorem acks_trigger_small :
    Transfers full (small.getSockObj.connected full) [1, 2, 3] 0 [[0, 0], [0, 3]] [3] [] :=
  (acks_trigger_iff (opened_openFile (by decide +kernel)) full (by decide) (by decide +kernel) (by
    unfold Truthful
    decide +kernel)).2 (by
    unfold Below
    decide +kernel)

/-! ## The end of a file of 4 GiB -/

/-- a file of one byte less than 4 GiB, 64 KiB less one byte before its end -/
def bigFile : CFile := ⟨List.replicate 4294967295 0, 4294901760, le_of_eq length_replicate⟩

/-- its transfer, before it is resumed there -/
def stored : CDCCSock := { init (lit "joe") (lit "/f") with
  sFileName := lit "f"
  uFileSize := 4294967295
  pFile := some { bigFile with uPos := 0 } }

def resumed : CDCCSock := { stored with
  uBytesSoFar := 4294901760
  pFile := some bigFile }

theorem opened_resumed : Opened resumed bigFile.sData 4294901760 := by
  have hstored : Opened stored bigFile.sData 0 := ⟨⟨bigFile.small, rfl⟩, rfl⟩
  have hseek : stored.seek true 4294901760 = (true, resumed) := rfl
  have hopened := opened_seek hstored (congrArg Prod.fst hseek)
  rwa [hseek] at hopened

theorem resumed_uBytesSoFar : (resumed.getSockObj.connected full).uBytesSoFar = 4294905856 := by
  have hlen : (bigFile.read 4096).length = 4096 := by
    rw [CFile.read, bigFile, drop_replicate, take_replicate, length_replicate]
    decide
  have hpos : 0 < (bigFile.read 4096).length := by
    rw [hlen]
    decide
  rw [connected, sendPacket_uBytesSoFar (f := bigFile) rfl 4096 (Nat.zero_le _) rfl hpos, hlen]
  rfl

/-- **The end of a file of 4 GiB**: all that was sent is acknowledged, and nothing more is sent. -/
theorem acks_stall : Opened resumed bigFile.sData 4294901760 ∧
    Truthful full (resumed.getSockObj.connected full) [4294905856] ∧
    ¬Transfers full (resumed.getSockObj.connected full) bigFile.sData 4294901760 [htonl 4294905856] [4294905856] [] := by
  have hsent := resumed_uBytesSoFar
  set s := resumed.getSockObj.connected full
  have htrue : (4294905856 : UInt32).toNat ≤ s.uBytesSoFar.toNat := by
    rw [hsent]
    decide
  have hwithin : s.uBytesSoFar.toNat ≤ (4294905856 : UInt32).toNat + 65536 := by
    rw [hsent]
    decide
  refine ⟨opened_resumed, ⟨htrue, trivial⟩, fun h => ?_⟩
  have htrigger := h.triggered.1 hwithin
  rw [triggers_iff, hsent] at htrigger
  exact absurd htrigger (by decide)

end ZNC.DccSend
