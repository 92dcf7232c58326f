/-
The lock of the ident file: `modules/identfile.cpp`, with `CIRCNetwork::Connect` of `src/IRCNetwork.cpp` and the socket of
`src/IRCSock.cpp`.

A connection attempt writes the ident of its user to a file that all users share. Until the attempt is over, nobody else may connect:
the connect queue is paused, and the file is locked. Then it gets its old text back.

Model: a socket is its address, which may be used again after the socket is gone. File operations succeed, a file that is not there is
an empty one, and nobody else writes a file under the lock. The read of a buffer that has no NUL goes behind it, and has no result.
`pauses` are the pauses of the connect queue by the module without those it resumed, and `before` is the text that the file had
when it was locked; the code reads neither.

Results:
- `readBuffer_eq_iff`: which texts the module can give back;
- `does_step`: what a step does; `step_ok_iff`: it keeps the law exactly if it meets its condition;
- `lock_iff`: so does a run;
- `short_again`: a text with a NUL comes back short.
-/
import ZNC.Lib.Runs
import ZNC.Token

namespace ZNC.IdentFile

open CString Option OrdMap List

/-! ## Model -/

structure CIRCSock where
  m_pNetwork : ℕ
  m_bAuthed : Bool
deriving DecidableEq

/-- the module; `sFile` and `sFormat` are in its registry -/
structure CIdentFileModule where
  bLoaded : Bool
  sFile : CString
  sFormat : CString
  m_sOrigISpoof : CString
  m_pISpoofLockFile : Option CString
  m_pIRCSock : Option ℕ
deriving DecidableEq

/-- the module, the sockets by their address, the socket of each network, and the files -/
structure CZNC where
  mod : CIdentFileModule
  socks : OrdMap ℕ CIRCSock
  m_pIRCSock : OrdMap ℕ ℕ
  files : OrdMap CString CString
  pauses : ℤ
  before : CString

/-- What happens: an attempt to connect, whether the hook of the module is called, and whether another module aborts; 001; a
connection that is closed; a socket that is deleted; the commands and the life of the module; and a file that somebody else writes. -/
inductive Event where
  | connect (pNetwork pIRCSock : ℕ) (bCalled bAbort : Bool) (expandString : CString → CString) (sIdent : CString)
  | registered (pIRCSock : ℕ)
  | disconnected (pIRCSock : ℕ)
  | deleted (pIRCSock : ℕ)
  | setFile (bAdmin : Bool) (sLine : CString)
  | setFormat (bAdmin : Bool) (sLine : CString)
  | load
  | unload
  | write (sFile sText : CString)

/-- `memset` and `Read` of 1024 bytes, and the string of the buffer -/
def readBuffer (sText : CString) : Option CString :=
  let buf : CString := sText.take 1024 ++ List.replicate (1024 - sText.length) 0
  if 0 ∈ buf then some buf.cStr else none

/-- `Replace("%", sIdent)` -/
def replacePercent (sData sIdent : CString) : CString := sData.cStr.flatMap fun c => if c = ch '%' then sIdent else [c]

namespace CZNC

def text (s : CZNC) (sFile : CString) : CString := (s.files.find sFile).getD []

/-- `SetIRCSock`; the queue is resumed and paused -/
def setIRCSock (s : CZNC) (pIRCSock : Option ℕ) : CZNC :=
  let s := if s.mod.m_pIRCSock.isSome then { s with pauses := s.pauses - 1 } else s
  let s := { s with mod := { s.mod with m_pIRCSock := pIRCSock } }
  if pIRCSock.isSome then { s with pauses := s.pauses + 1 } else s

def writeISpoof (s : CZNC) (expandString : CString → CString) (sIdent : CString) : Option (CZNC × Bool) :=
  if s.mod.m_pISpoofLockFile.isSome then some (s, false)
  else
    match readBuffer (s.text s.mod.sFile) with
    | none => none
    | some sOrig =>
      let sData := expandString s.mod.sFormat
      let sData := if sData = s.mod.sFormat then replacePercent sData sIdent else sData
      let mod := { s.mod with m_pISpoofLockFile := some s.mod.sFile, m_sOrigISpoof := sOrig }
      some ({ s with mod := mod, files := s.files.insert s.mod.sFile (sData ++ lit "\n"),
                     before := s.text s.mod.sFile }, true)

def releaseISpoof (s : CZNC) : CZNC :=
  let s := s.setIRCSock none
  match s.mod.m_pISpoofLockFile with
  | none => s
  | some sFile =>
    { s with mod := { s.mod with m_pISpoofLockFile := none }, files := s.files.insert sFile s.mod.m_sOrigISpoof }

/-- `OnIRCConnecting`, and whether the attempt is aborted -/
def onIRCConnecting (s : CZNC) (pIRCSock : ℕ) (expandString : CString → CString) (sIdent : CString) :
    Option (CZNC × Bool) :=
  if s.mod.m_pISpoofLockFile.isSome then some (s, true)
  else
    match s.writeISpoof expandString sIdent with
    | none => none
    | some (s, false) => some (s, true)
    | some (s, true) => some (s.setIRCSock (some pIRCSock), false)

def onIRCConnected (s : CZNC) (pNetwork : ℕ) : CZNC :=
  if s.mod.bLoaded ∧ s.mod.m_pIRCSock = s.m_pIRCSock.find pNetwork then s.releaseISpoof else s

def onIRCConnectionError (s : CZNC) (pIRCSock : ℕ) : CZNC :=
  if s.mod.bLoaded ∧ s.mod.m_pIRCSock = some pIRCSock then s.releaseISpoof else s

/-- `new CIRCSock(this)` -/
def newSock (s : CZNC) (pNetwork pIRCSock : ℕ) : CZNC :=
  { s with
    socks := s.socks.insert pIRCSock ⟨pNetwork, false⟩
    m_pIRCSock := s.m_pIRCSock.insert pNetwork pIRCSock }

/-- the end of `~CIRCSock` -/
def dropSock (s : CZNC) (pIRCSock : ℕ) (sock : CIRCSock) : CZNC :=
  { s with socks := s.socks.erase pIRCSock, m_pIRCSock := s.m_pIRCSock.erase sock.m_pNetwork }

/-- `~CIRCSock` -/
def deleteSock (s : CZNC) (pIRCSock : ℕ) (sock : CIRCSock) : CZNC :=
  (if sock.m_bAuthed then s else s.onIRCConnectionError pIRCSock).dropSock pIRCSock sock

/-- `Connect` from the constructor of the socket on -/
def connect (s : CZNC) (pNetwork pIRCSock : ℕ) (bCalled bAbort : Bool) (expandString : CString → CString)
    (sIdent : CString) : Option CZNC :=
  let sock : CIRCSock := ⟨pNetwork, false⟩
  let s := s.newSock pNetwork pIRCSock
  if s.mod.bLoaded && bCalled then
    match s.onIRCConnecting pIRCSock expandString sIdent with
    | none => none
    | some (s, bAbort') => some (if bAbort' || bAbort then s.deleteSock pIRCSock sock else s)
  else some (if bAbort then s.deleteSock pIRCSock sock else s)

def onLoad (s : CZNC) : CZNC :=
  let sFormat := if s.mod.sFormat = [] then lit "global \x7b reply \"%ident%\" \x7d" else s.mod.sFormat
  let sFile := if s.mod.sFile = [] then lit "~/.oidentd.conf" else s.mod.sFile
  { s with mod := { s.mod with bLoaded := true, sFormat := sFormat, sFile := sFile, m_pISpoofLockFile := none,
                               m_pIRCSock := none } }

/-- One event. A network with a socket does not connect, a new socket has an address that is not in use, and what happens to a socket
that is gone, or to a module that is not there, does not happen. -/
def step (s : CZNC) : Event → Option CZNC
  | .connect pNetwork pIRCSock bCalled bAbort expandString sIdent =>
    if (s.m_pIRCSock.find pNetwork).isSome ∨ (s.socks.find pIRCSock).isSome then some s
    else s.connect pNetwork pIRCSock bCalled bAbort expandString sIdent
  | .registered pIRCSock =>
    match s.socks.find pIRCSock with
    | none => some s
    | some sock =>
      some ({ s with socks := s.socks.insert pIRCSock { sock with m_bAuthed := true } }.onIRCConnected sock.m_pNetwork)
  | .disconnected pIRCSock =>
    match s.socks.find pIRCSock with
    | none => some s
    | some sock => some (s.onIRCConnected sock.m_pNetwork)
  | .deleted pIRCSock =>
    match s.socks.find pIRCSock with
    | none => some s
    | some sock => some (s.deleteSock pIRCSock sock)
  | .setFile bAdmin sLine =>
    some (if s.mod.bLoaded ∧ bAdmin then { s with mod := { s.mod with sFile := sLine.token 1 true (ch ' ') false } } else s)
  | .setFormat bAdmin sLine =>
    some (if s.mod.bLoaded ∧ bAdmin then { s with mod := { s.mod with sFormat := sLine.token 1 true (ch ' ') false } } else s)
  | .load => some (if s.mod.bLoaded then s else s.onLoad)
  | .unload =>
    some (if s.mod.bLoaded then { s.releaseISpoof with mod := { s.releaseISpoof.mod with bLoaded := false } } else s)
  | .write sFile sText =>
    -- nobody writes the file under the lock
    some (if s.mod.m_pISpoofLockFile = some sFile then s else { s with files := s.files.insert sFile sText })

/-- ZNC has started; the registry of the module and the files are any -/
def start (sFile sFormat : CString) (files : OrdMap CString CString) : CZNC :=
  ⟨⟨false, sFile, sFormat, [], none, none⟩, .empty, .empty, files, 0, []⟩

/-! ## The law of the lock -/

/-- the attempt that has the lock -/
def Owns (s : CZNC) (pIRCSock : ℕ) : Prop :=
  s.mod.m_pIRCSock = some pIRCSock ∧ ∃ sock, s.socks.find pIRCSock = some sock ∧ sock.m_bAuthed = false

/-- the lock is held exactly if the queue has one pause of the module, and exactly if one attempt has it -/
structure Good (s : CZNC) : Prop where
  paused : s.mod.m_pISpoofLockFile.isSome ↔ s.pauses = 1
  free : s.mod.m_pISpoofLockFile = none ↔ s.pauses = 0
  owned : s.mod.m_pISpoofLockFile.isSome ↔ ∃! pIRCSock, s.Owns pIRCSock

/-- the text of a file without the lock -/
def original (s : CZNC) (sFile : CString) : CString :=
  if s.mod.m_pISpoofLockFile = some sFile then s.before else s.text sFile

/-- the event ends the attempt that has the lock, or the module -/
def Ends (s : CZNC) : Event → Prop
  | .registered pIRCSock => s.mod.m_pIRCSock = some pIRCSock
  | .disconnected pIRCSock => s.mod.m_pIRCSock = some pIRCSock
  | .deleted pIRCSock => s.mod.m_pIRCSock = some pIRCSock
  | .unload => True
  | _ => False

/-- the texts after the event, without the lock -/
def expected (s : CZNC) (ev : Event) (sFile : CString) : CString :=
  match ev with
  | .write sOther sText => if sFile = sOther ∧ s.mod.m_pISpoofLockFile ≠ some sOther then sText else s.original sFile
  | _ => s.original sFile

/-- what a step does to the lock: it is released when its attempt ends, and not before; it is taken by an attempt that begins; and
no text gets lost -/
structure Ok (s : CZNC) (ev : Event) (s' : CZNC) : Prop where
  released : s.mod.m_pISpoofLockFile.isSome → s.Ends ev → s'.mod.m_pISpoofLockFile = none
  kept : s.mod.m_pISpoofLockFile.isSome → ¬ s.Ends ev →
    s'.mod.m_pISpoofLockFile = s.mod.m_pISpoofLockFile ∧ s'.mod.m_pIRCSock = s.mod.m_pIRCSock
  taken : s.mod.m_pISpoofLockFile = none → s'.mod.m_pISpoofLockFile.isSome →
    ∃ pNetwork pIRCSock bAbort expandString sIdent, ev = .connect pNetwork pIRCSock true bAbort expandString sIdent ∧
      s'.Owns pIRCSock
  text : ∀ sFile, s'.original sFile = s.expected ev sFile

end CZNC

/-- a text that a buffer of 1024 bytes holds as a string -/
def Fits (sText : CString) : Prop := sText.length < 1024 ∧ 0 ∉ sText

/-- a text that the buffer holds up to a NUL -/
def Readable (sText : CString) : Prop := sText.length < 1024 ∨ 0 ∈ sText.take 1024

namespace CZNC

/-- the attempt takes the lock -/
def Takes (s : CZNC) : Event → Prop
  | .connect pNetwork pIRCSock bCalled _ _ _ =>
    s.m_pIRCSock.find pNetwork = none ∧ s.socks.find pIRCSock = none ∧ s.mod.bLoaded = true ∧ bCalled = true ∧
      s.mod.m_pISpoofLockFile = none
  | _ => False

/-- another module aborts the attempt -/
def Aborts : Event → Prop
  | .connect _ _ _ bAbort _ _ => bAbort = true
  | _ => False

/-- a file that is locked can be read, and one that is released fits the buffer -/
structure Meets (s : CZNC) (ev : Event) : Prop where
  takes : s.Takes ev → Readable (s.text s.mod.sFile) ∧ (Aborts ev → Fits (s.text s.mod.sFile))
  ends : s.mod.m_pISpoofLockFile.isSome → s.Ends ev → Fits s.before

end CZNC

/-! ## The buffer -/

/-- **A text comes back** exactly if it fits the buffer. -/
theorem readBuffer_eq_iff {sText sOrig : CString} (h : readBuffer sText = some sOrig) : sOrig = sText ↔ Fits sText := by
  rw [readBuffer] at h
  split_ifs at h with hnul
  obtain rfl := some.inj h
  constructor
  · intro hsame
    have hout : (0 : UInt8) ∉ sText := by
      rw [← hsame, cStr]
      intro hmem
      simpa using mem_takeWhile_imp hmem
    refine ⟨?_, hout⟩
    by_contra hlong
    have hempty : 1024 - sText.length = 0 := by omega
    rw [hempty, replicate_zero, append_nil] at hnul
    exact hout (mem_of_mem_take hnul)
  · rintro ⟨hshort, hout⟩
    have hpad : List.replicate (1024 - sText.length) (0 : UInt8) = 0 :: List.replicate (1023 - sText.length) 0 := by
      rw [← replicate_succ]
      congr 1
      omega
    rw [take_of_length_le hshort.le, hpad, cStr, takeWhile_append_of_pos]
    · simp
    · intro c hc
      simpa using fun h0 : c = 0 => hout (h0 ▸ hc)

theorem readBuffer_isSome_iff (sText : CString) : (readBuffer sText).isSome ↔ Readable sText := by
  rw [readBuffer, Readable]
  by_cases hshort : sText.length < 1024
  · have hpad : 1024 - sText.length ≠ 0 := by omega
    rw [if_pos (mem_append_right _ (mem_replicate.2 ⟨hpad, rfl⟩))]
    simp [hshort]
  · have hempty : 1024 - sText.length = 0 := by omega
    rw [hempty, replicate_zero, append_nil]
    by_cases hnul : (0 : UInt8) ∈ sText.take 1024
    · simp [hnul]
    · simp [hnul, hshort]

namespace CZNC

variable {s : CZNC}

/-! ## The lock and the sockets -/

/-- the lock, the pause and the socket of the module go together, and so do the sockets and those of the networks -/
structure Base (s : CZNC) : Prop where
  locked : s.mod.m_pISpoofLockFile.isSome ↔ s.mod.m_pIRCSock.isSome
  pauses : s.pauses = if s.mod.m_pIRCSock.isSome then 1 else 0
  loaded : s.mod.bLoaded = false → s.mod.m_pIRCSock = none
  nets : ∀ n p, s.m_pIRCSock.find n = some p ↔ ∃ sock, s.socks.find p = some sock ∧ sock.m_pNetwork = n
  saved : s.mod.m_pISpoofLockFile.isSome → readBuffer s.before = some s.mod.m_sOrigISpoof

/-- the socket of the module is there, and did not register -/
structure Inv (s : CZNC) : Prop extends Base s where
  owner : ∀ p, s.mod.m_pIRCSock = some p → ∃ sock, s.socks.find p = some sock ∧ sock.m_bAuthed = false

/-- the state with the lock released -/
def released (s : CZNC) : CZNC :=
  { s with
    mod := { s.mod with m_pISpoofLockFile := none, m_pIRCSock := none }
    files := s.mod.m_pISpoofLockFile.elim s.files fun sFile => s.files.insert sFile s.mod.m_sOrigISpoof
    pauses := 0 }

theorem Base.releaseISpoof_eq (h : Base s) : s.releaseISpoof = s.released := by
  obtain ⟨⟨bLoaded, sFile, sFormat, sOrig, lock, sock⟩, socks, nets, files, pauses, before⟩ := s
  have hlocked := h.locked
  have hpauses := h.pauses
  cases sock with
  | none =>
    cases lock with
    | none => simp_all [releaseISpoof, setIRCSock, released]
    | some path => simp at hlocked
  | some p =>
    cases lock with
    | none => simp at hlocked
    | some path => simp_all [releaseISpoof, setIRCSock, released]

theorem text_released (sFile : CString) : s.released.original sFile =
    if s.mod.m_pISpoofLockFile = some sFile then s.mod.m_sOrigISpoof else s.original sFile := by
  rw [original, released, text]
  cases hlock : s.mod.m_pISpoofLockFile with
  | none => simp [original, hlock, text]
  | some path =>
    by_cases hfile : sFile = path
    · simp [hfile, find_insert]
    · simp [original, hlock, text, find_insert, hfile, Ne.symm hfile]

/-- **What a release does**: nobody has the lock, and the file has the text that the module kept. -/
theorem Base.release (h : Base s) : Inv s.releaseISpoof ∧ s.releaseISpoof.mod.m_pISpoofLockFile = none ∧
    ∀ sFile, s.releaseISpoof.original sFile =
      if s.mod.m_pISpoofLockFile = some sFile then s.mod.m_sOrigISpoof else s.original sFile := by
  rw [h.releaseISpoof_eq]
  refine ⟨⟨⟨by simp [released], by simp [released], fun _ => rfl, h.nets, fun hlock => ?_⟩, fun p hp => ?_⟩,
    rfl, text_released⟩
  · simp [released] at hlock
  · simp [released] at hp

variable {pIRCSock : ℕ}

theorem Base.bLoaded (h : Base s) (howner : s.mod.m_pIRCSock = some pIRCSock) :
    s.mod.bLoaded = true := by
  by_contra hout
  have hnone := h.loaded (Bool.eq_false_of_not_eq_true hout)
  rw [howner] at hnone
  cases hnone

variable {ev : Event} {sock : CIRCSock}

theorem Base.onIRCConnected_eq (h : Base s) (hsock : s.socks.find pIRCSock = some sock) :
    s.onIRCConnected sock.m_pNetwork = if s.mod.m_pIRCSock = some pIRCSock then s.releaseISpoof else s := by
  have hnet : s.m_pIRCSock.find sock.m_pNetwork = some pIRCSock := (h.nets _ _).2 ⟨sock, hsock, rfl⟩
  rw [onIRCConnected, hnet]
  by_cases howner : s.mod.m_pIRCSock = some pIRCSock
  · rw [if_pos ⟨h.bLoaded howner, howner⟩, if_pos howner]
  · rw [if_neg fun hboth => howner hboth.2, if_neg howner]

theorem Base.onIRCConnectionError_eq (h : Base s) (pIRCSock : ℕ) :
    s.onIRCConnectionError pIRCSock = if s.mod.m_pIRCSock = some pIRCSock then s.releaseISpoof else s := by
  rw [onIRCConnectionError]
  by_cases howner : s.mod.m_pIRCSock = some pIRCSock
  · rw [if_pos ⟨h.bLoaded howner, howner⟩, if_pos howner]
  · rw [if_neg fun hboth => howner hboth.2, if_neg howner]

theorem Inv.newSock (h : Inv s) {pNetwork pIRCSock : ℕ} (hnet : s.m_pIRCSock.find pNetwork = none)
    (hsock : s.socks.find pIRCSock = none) : Inv (s.newSock pNetwork pIRCSock) := by
  refine ⟨⟨h.locked, h.pauses, h.loaded, fun n p => ?_, h.saved⟩, fun p hp => ?_⟩
  · rw [CZNC.newSock, find_insert, find_insert]
    by_cases hn : n = pNetwork
    · subst hn
      rw [if_pos rfl]
      constructor
      · intro hp
        obtain rfl := some.inj hp
        exact ⟨⟨n, false⟩, by rw [if_pos rfl], rfl⟩
      · rintro ⟨sock, hfind, hsocknet⟩
        by_cases hp : p = pIRCSock
        · rw [hp]
        · rw [if_neg hp] at hfind
          have hold := (h.nets n p).2 ⟨sock, hfind, hsocknet⟩
          rw [hnet] at hold
          cases hold
    · rw [if_neg hn, h.nets]
      by_cases hp : p = pIRCSock
      · subst hp
        rw [if_pos rfl, hsock]
        constructor
        · rintro ⟨sock, hfind, -⟩
          cases hfind
        · rintro ⟨sock, hfind, hsocknet⟩
          obtain rfl := some.inj hfind
          exact absurd hsocknet.symm hn
      · rw [if_neg hp]
  · obtain ⟨sock, hfind, hauthed⟩ := h.owner p hp
    have hne : p ≠ pIRCSock := by
      rintro rfl
      rw [hsock] at hfind
      cases hfind
    exact ⟨sock, by rw [CZNC.newSock, find_insert, if_neg hne, hfind], hauthed⟩

theorem Inv.dropSock (h : Inv s) (hsock : s.socks.find pIRCSock = some sock)
    (hother : s.mod.m_pIRCSock ≠ some pIRCSock) : Inv (s.dropSock pIRCSock sock) := by
  have hnet : s.m_pIRCSock.find sock.m_pNetwork = some pIRCSock := (h.nets _ _).2 ⟨sock, hsock, rfl⟩
  refine ⟨⟨h.locked, h.pauses, h.loaded, fun n p => ?_, h.saved⟩, fun p hp => ?_⟩
  · rw [CZNC.dropSock, find_erase, find_erase]
    constructor
    · intro hfind
      split_ifs at hfind with hn
      obtain ⟨sock', hfind', hn'⟩ := (h.nets n p).1 hfind
      have hp : p ≠ pIRCSock := by
        rintro rfl
        obtain rfl := some.inj (hsock.symm.trans hfind')
        exact hn hn'.symm
      exact ⟨sock', by rw [if_neg hp, hfind'], hn'⟩
    · rintro ⟨sock', hfind', hn'⟩
      split_ifs at hfind' with hp
      have hfind := (h.nets n p).2 ⟨sock', hfind', hn'⟩
      have hn : n ≠ sock.m_pNetwork := by
        rintro rfl
        exact hp (some.inj (hfind.symm.trans hnet))
      rw [if_neg hn, hfind]
  · obtain ⟨sock', hfind, hauthed⟩ := h.owner p hp
    have hne : p ≠ pIRCSock := by
      rintro rfl
      exact hother hp
    exact ⟨sock', by rw [CZNC.dropSock, find_erase, if_neg hne, hfind], hauthed⟩

theorem Inv.deleteSock_eq (h : Inv s) (hsock : s.socks.find pIRCSock = some sock) :
    s.deleteSock pIRCSock sock =
      (if s.mod.m_pIRCSock = some pIRCSock then s.releaseISpoof else s).dropSock pIRCSock sock := by
  rw [deleteSock, h.onIRCConnectionError_eq]
  by_cases howner : s.mod.m_pIRCSock = some pIRCSock
  · obtain ⟨sock', hfind, hauthed⟩ := h.owner _ howner
    obtain rfl := some.inj (hsock.symm.trans hfind)
    rw [hauthed]
    rfl
  · rw [if_neg howner, ite_self]

/-! ## What a step does -/

/-- A step leaves the lock alone; or the attempt that has the lock ends; or an attempt takes the lock, and is aborted or not; or the
file cannot be read. -/
inductive Does (s : CZNC) (ev : Event) : Option CZNC → Prop
  | quiet (s' : CZNC) (hinv : Inv s') (htakes : ¬ s.Takes ev) (hends : s.mod.m_pISpoofLockFile.isSome → ¬ s.Ends ev)
    (hlock : s'.mod.m_pISpoofLockFile = s.mod.m_pISpoofLockFile) (hsock : s'.mod.m_pIRCSock = s.mod.m_pIRCSock)
    (htext : ∀ sFile, s'.original sFile = s.expected ev sFile) : Does s ev (some s')
  | ends (s' : CZNC) (hinv : Inv s') (htakes : ¬ s.Takes ev) (hlocked : s.mod.m_pISpoofLockFile.isSome)
      (hends : s.Ends ev)
    (hfree : s'.mod.m_pISpoofLockFile = none)
    (htext : ∀ sFile, s'.original sFile =
      if s.mod.m_pISpoofLockFile = some sFile then s.mod.m_sOrigISpoof else s.original sFile) : Does s ev (some s')
  | aborts (s' : CZNC) (sOrig : CString) (hinv : Inv s') (htakes : s.Takes ev) (haborts : Aborts ev)
    (hread : readBuffer (s.text s.mod.sFile) = some sOrig) (hfree : s'.mod.m_pISpoofLockFile = none)
    (htext : ∀ sFile, s'.original sFile = if sFile = s.mod.sFile then sOrig else s.original sFile) : Does s ev (some s')
  | takes (s' : CZNC) (sOrig : CString) (hinv : Inv s') (htakes : s.Takes ev) (hstays : ¬ Aborts ev)
    (hread : readBuffer (s.text s.mod.sFile) = some sOrig)
    (howns : ∃ pNetwork pIRCSock bAbort expandString sIdent,
      ev = .connect pNetwork pIRCSock true bAbort expandString sIdent ∧
      s'.Owns pIRCSock)
    (htext : ∀ sFile, s'.original sFile = s.original sFile) : Does s ev (some s')
  | unread (htakes : s.Takes ev) (hread : readBuffer (s.text s.mod.sFile) = none) : Does s ev none

theorem Base.socks_release (h : Base s) : s.releaseISpoof.socks = s.socks ∧ s.releaseISpoof.mod.m_pIRCSock = none := by
  rw [h.releaseISpoof_eq]
  exact ⟨rfl, rfl⟩

theorem Inv.not_owner (h : Inv s) (hsock : s.socks.find pIRCSock = none) :
    s.mod.m_pIRCSock ≠ some pIRCSock := by
  intro howner
  obtain ⟨sock, hfind, -⟩ := h.owner _ howner
  rw [hsock] at hfind
  cases hfind

theorem Inv.isLocked (h : Inv s) (howner : s.mod.m_pIRCSock = some pIRCSock) :
    s.mod.m_pISpoofLockFile.isSome := by
  rw [h.locked, howner]
  rfl

theorem Inv.authed (h : Inv s) (hsock : s.socks.find pIRCSock = some sock) :
    Base { s with socks := s.socks.insert pIRCSock { sock with m_bAuthed := true } } := by
  refine ⟨h.locked, h.pauses, h.loaded, fun n p => ?_, h.saved⟩
  dsimp only
  rw [h.nets, find_insert]
  by_cases hp : p = pIRCSock
  · subst hp
    rw [if_pos rfl, hsock]
    simp
  · rw [if_neg hp]

/-- the state with the lock taken -/
def taken (s : CZNC) (pIRCSock : ℕ) (sOrig sData : CString) : CZNC :=
  { s with
    mod := { s.mod with m_pISpoofLockFile := some s.mod.sFile, m_sOrigISpoof := sOrig, m_pIRCSock := some pIRCSock }
    files := s.files.insert s.mod.sFile sData
    pauses := 1
    before := s.text s.mod.sFile }

theorem Base.onIRCConnecting_free (h : Base s) (hlock : s.mod.m_pISpoofLockFile = none) (pIRCSock : ℕ)
    (expandString : CString → CString) (sIdent : CString) :
    (readBuffer (s.text s.mod.sFile) = none ∧ s.onIRCConnecting pIRCSock expandString sIdent = none) ∨
      ∃ sOrig sData, readBuffer (s.text s.mod.sFile) = some sOrig ∧
        s.onIRCConnecting pIRCSock expandString sIdent = some (s.taken pIRCSock sOrig sData, false) := by
  have hsock : s.mod.m_pIRCSock = none := by simpa [hlock] using h.locked
  have hpauses := h.pauses
  rw [hsock] at hpauses
  rw [onIRCConnecting, writeISpoof, hlock]
  cases hread : readBuffer (s.text s.mod.sFile) with
  | none => exact .inl ⟨rfl, rfl⟩
  | some sOrig =>
    let sData := if expandString s.mod.sFormat = s.mod.sFormat then replacePercent (expandString s.mod.sFormat) sIdent
      else expandString s.mod.sFormat
    refine .inr ⟨sOrig, sData ++ lit "\n", rfl, ?_⟩
    simp [setIRCSock, taken, hsock, hpauses, sData]

theorem Inv.taken (h : Inv s) (hsock : s.socks.find pIRCSock = some sock)
    (hauthed : sock.m_bAuthed = false) (hloaded : s.mod.bLoaded = true) {sOrig : CString}
    (hread : readBuffer (s.text s.mod.sFile) = some sOrig) (sData : CString) : Inv (s.taken pIRCSock sOrig sData) := by
  refine ⟨⟨by simp [CZNC.taken], by simp [CZNC.taken], fun hout => ?_, h.nets, fun _ => hread⟩, fun p hp => ?_⟩
  · rw [CZNC.taken, hloaded] at hout
    cases hout
  · obtain rfl := some.inj hp
    exact ⟨sock, hsock, hauthed⟩

theorem original_taken (hlock : s.mod.m_pISpoofLockFile = none) (pIRCSock : ℕ) (sOrig sData sFile : CString) :
    (s.taken pIRCSock sOrig sData).original sFile = s.original sFile := by
  rw [original, original, hlock, taken]
  by_cases hfile : s.mod.sFile = sFile
  · simp [hfile, text]
  · simp [hfile, Ne.symm hfile, text, find_insert]

theorem does_connect (h : Inv s) (pNetwork pIRCSock : ℕ) (bCalled bAbort : Bool) (expandString : CString → CString)
    (sIdent : CString) : Does s (.connect pNetwork pIRCSock bCalled bAbort expandString sIdent)
      (s.step (.connect pNetwork pIRCSock bCalled bAbort expandString sIdent)) := by
  rw [step]
  by_cases hused : (s.m_pIRCSock.find pNetwork).isSome ∨ (s.socks.find pIRCSock).isSome
  · rw [if_pos hused]
    refine .quiet s h (fun htakes => ?_) (fun _ => id) rfl rfl fun _ => rfl
    rcases hused with hused | hused
    · rw [htakes.1] at hused
      cases hused
    · rw [htakes.2.1] at hused
      cases hused
  · rw [if_neg hused, connect]
    obtain ⟨hnet, hsock⟩ : s.m_pIRCSock.find pNetwork = none ∧ s.socks.find pIRCSock = none := by simpa using hused
    have hnew := h.newSock hnet hsock
    have hfind : (s.newSock pNetwork pIRCSock).socks.find pIRCSock = some ⟨pNetwork, false⟩ := by
      rw [newSock, find_insert, if_pos rfl]
    have hother : (s.newSock pNetwork pIRCSock).mod.m_pIRCSock ≠ some pIRCSock := h.not_owner hsock
    -- an attempt that does not take the lock
    have hquiet : ∀ bAbort' : Bool, (¬ s.Takes (.connect pNetwork pIRCSock bCalled bAbort expandString sIdent)) →
        Does s (.connect pNetwork pIRCSock bCalled bAbort expandString sIdent)
          (some (if bAbort' then (s.newSock pNetwork pIRCSock).deleteSock pIRCSock ⟨pNetwork, false⟩
            else s.newSock pNetwork pIRCSock)) := by
      intro bAbort' htakes
      rw [hnew.deleteSock_eq hfind, if_neg hother]
      cases bAbort' with
      | false => exact .quiet _ hnew htakes (fun _ => id) rfl rfl fun _ => rfl
      | true => exact .quiet _ (hnew.dropSock hfind hother) htakes (fun _ => id) rfl rfl fun _ => rfl
    by_cases hcalled : s.mod.bLoaded = true ∧ bCalled = true
    · obtain ⟨hloaded, hbCalled⟩ := hcalled
      have hboth : ((s.newSock pNetwork pIRCSock).mod.bLoaded && bCalled) = true := by simp [newSock, hloaded, hbCalled]
      rw [if_pos hboth]
      cases hlock : s.mod.m_pISpoofLockFile with
      | some path =>
        have haborted : (s.newSock pNetwork pIRCSock).onIRCConnecting pIRCSock expandString sIdent =
            some (s.newSock pNetwork pIRCSock, true) := by
          rw [onIRCConnecting, newSock, if_pos (by rw [hlock]; rfl)]
        rw [haborted]
        refine hquiet true fun htakes => ?_
        rw [htakes.2.2.2.2] at hlock
        cases hlock
      | none =>
        have htakes : s.Takes (.connect pNetwork pIRCSock bCalled bAbort expandString sIdent) :=
          ⟨hnet, hsock, hloaded, hbCalled, hlock⟩
        have hlocknew : (s.newSock pNetwork pIRCSock).mod.m_pISpoofLockFile = none := hlock
        rcases hnew.onIRCConnecting_free hlocknew pIRCSock expandString sIdent with ⟨hread, heq⟩ |
          ⟨sOrig, sData, hread, heq⟩
        · rw [heq]
          exact .unread htakes hread
        · rw [heq]
          have htaken := hnew.taken hfind rfl hloaded hread sData
          have htext := original_taken hlocknew pIRCSock sOrig sData
          cases bAbort with
          | false =>
            exact .takes _ sOrig htaken htakes (by simp [Aborts]) hread
              ⟨pNetwork, pIRCSock, false, expandString, sIdent, by rw [hbCalled], rfl,
                ⟨pNetwork, false⟩, hfind, rfl⟩ htext
          | true =>
            obtain ⟨hinv, hfree, hback⟩ := htaken.release
            obtain ⟨hsocks, hnone⟩ := htaken.socks_release
            have howner : ((s.newSock pNetwork pIRCSock).taken pIRCSock sOrig sData).mod.m_pIRCSock =
              some pIRCSock := rfl
            have hdelete := htaken.deleteSock_eq hfind
            rw [if_pos howner] at hdelete
            dsimp only
            rw [Bool.false_or, if_pos rfl, hdelete]
            refine .aborts _ sOrig
              (hinv.dropSock (hsocks ▸ hfind) (by simp [hnone])) htakes rfl hread hfree fun sFile => ?_
            have hsame := hback sFile
            rw [htext] at hsame
            refine hsame.trans ?_
            by_cases hfile : sFile = s.mod.sFile
            · rw [if_pos hfile, if_pos (by rw [hfile]; rfl)]
              rfl
            · have hother : ((s.newSock pNetwork pIRCSock).taken pIRCSock sOrig sData).mod.m_pISpoofLockFile ≠ some sFile :=
                fun heq => hfile (some.inj heq).symm
              rw [if_neg hfile, if_neg hother]
              rfl
    · have hboth : ¬ ((s.newSock pNetwork pIRCSock).mod.bLoaded && bCalled) = true := by simpa [newSock] using hcalled
      rw [if_neg hboth]
      exact hquiet bAbort fun htakes => hcalled ⟨htakes.2.2.1, htakes.2.2.2.1⟩

theorem does_registered (h : Inv s) (pIRCSock : ℕ) : Does s (.registered pIRCSock) (s.step (.registered pIRCSock)) := by
  rw [step]
  cases hsock : s.socks.find pIRCSock with
  | none => exact .quiet s h id (fun _ howner => h.not_owner hsock howner) rfl rfl fun _ => rfl
  | some sock =>
    have hbase := h.authed hsock
    have hfind : (s.socks.insert pIRCSock { sock with m_bAuthed := true }).find pIRCSock =
      some { sock with m_bAuthed := true } := by
      rw [find_insert, if_pos rfl]
    have hcalled := hbase.onIRCConnected_eq hfind
    dsimp only at hcalled ⊢
    rw [hcalled]
    by_cases howner : s.mod.m_pIRCSock = some pIRCSock
    · obtain ⟨hinv, hfree, htext⟩ := hbase.release
      rw [if_pos howner]
      exact .ends _ hinv id (h.isLocked howner) howner hfree htext
    · rw [if_neg howner]
      refine .quiet _ ⟨hbase, fun p hp => ?_⟩ id (fun _ => howner) rfl rfl fun _ => rfl
      obtain ⟨sock', hfind', hauthed⟩ := h.owner p hp
      have hne : p ≠ pIRCSock := by
        rintro rfl
        exact howner hp
      exact ⟨sock', by rw [find_insert, if_neg hne, hfind'], hauthed⟩

theorem does_disconnected (h : Inv s) (pIRCSock : ℕ) :
    Does s (.disconnected pIRCSock) (s.step (.disconnected pIRCSock)) := by
  rw [step]
  cases hsock : s.socks.find pIRCSock with
  | none => exact .quiet s h id (fun _ howner => h.not_owner hsock howner) rfl rfl fun _ => rfl
  | some sock =>
    dsimp only
    rw [h.onIRCConnected_eq hsock]
    by_cases howner : s.mod.m_pIRCSock = some pIRCSock
    · obtain ⟨hinv, hfree, htext⟩ := h.release
      rw [if_pos howner]
      exact .ends _ hinv id (h.isLocked howner) howner hfree htext
    · rw [if_neg howner]
      exact .quiet s h id (fun _ => howner) rfl rfl fun _ => rfl

theorem does_deleted (h : Inv s) (pIRCSock : ℕ) : Does s (.deleted pIRCSock) (s.step (.deleted pIRCSock)) := by
  rw [step]
  cases hsock : s.socks.find pIRCSock with
  | none => exact .quiet s h id (fun _ howner => h.not_owner hsock howner) rfl rfl fun _ => rfl
  | some sock =>
    dsimp only
    rw [h.deleteSock_eq hsock]
    by_cases howner : s.mod.m_pIRCSock = some pIRCSock
    · obtain ⟨hinv, hfree, htext⟩ := h.release
      obtain ⟨hsocks, hnone⟩ := h.socks_release
      rw [if_pos howner]
      exact .ends _ (hinv.dropSock (by rw [hsocks, hsock]) (by simp [hnone])) id (h.isLocked howner) howner hfree htext
    · rw [if_neg howner]
      exact .quiet _ (h.dropSock hsock howner) id (fun _ => howner) rfl rfl fun _ => rfl

theorem does_unload (h : Inv s) : Does s .unload (s.step .unload) := by
  rw [step]
  by_cases hloaded : s.mod.bLoaded = true
  · rw [if_pos hloaded]
    obtain ⟨hinv, hfree, htext⟩ := h.release
    have hout : Inv { s.releaseISpoof with mod := { s.releaseISpoof.mod with bLoaded := false } } :=
      ⟨⟨hinv.locked, hinv.pauses, fun _ => h.socks_release.2, hinv.nets, hinv.saved⟩, hinv.owner⟩
    cases hlock : s.mod.m_pISpoofLockFile with
    | some path => exact .ends _ hout id (by rw [hlock]; rfl) trivial hfree htext
    | none =>
      have hsock : s.mod.m_pIRCSock = none := by simpa [hlock] using h.locked
      refine .quiet _ hout id (fun hlocked => absurd hlocked (by simp [hlock])) (hfree.trans hlock.symm)
        (h.socks_release.2.trans hsock.symm) fun sFile => ?_
      have hsame := htext sFile
      rw [hlock] at hsame
      exact hsame
  · rw [if_neg hloaded]
    have hsock := h.loaded (Bool.eq_false_of_not_eq_true hloaded)
    refine .quiet s h id (fun hlocked => ?_) rfl rfl fun _ => rfl
    rw [h.locked, hsock] at hlocked
    cases hlocked

theorem does_step (h : Inv s) (ev : Event) : Does s ev (s.step ev) := by
  cases ev with
  | connect pNetwork pIRCSock bCalled bAbort expandString sIdent => exact does_connect h _ _ _ _ _ _
  | registered pIRCSock => exact does_registered h pIRCSock
  | disconnected pIRCSock => exact does_disconnected h pIRCSock
  | deleted pIRCSock => exact does_deleted h pIRCSock
  | setFile bAdmin sLine =>
    rw [step]
    split_ifs
    · exact .quiet _ ⟨⟨h.locked, h.pauses, h.loaded, h.nets, h.saved⟩, h.owner⟩ id (fun _ => id) rfl rfl fun _ => rfl
    · exact .quiet s h id (fun _ => id) rfl rfl fun _ => rfl
  | setFormat bAdmin sLine =>
    rw [step]
    split_ifs
    · exact .quiet _ ⟨⟨h.locked, h.pauses, h.loaded, h.nets, h.saved⟩, h.owner⟩ id (fun _ => id) rfl rfl fun _ => rfl
    · exact .quiet s h id (fun _ => id) rfl rfl fun _ => rfl
  | load =>
    rw [step]
    by_cases hloaded : s.mod.bLoaded = true
    · rw [if_pos hloaded]
      exact .quiet s h id (fun _ => id) rfl rfl fun _ => rfl
    · have hsock := h.loaded (Bool.eq_false_of_not_eq_true hloaded)
      have hlock : s.mod.m_pISpoofLockFile = none := by simpa [hsock] using h.locked
      have hpauses := h.pauses
      rw [hsock] at hpauses
      rw [if_neg hloaded]
      refine .quiet _ ⟨⟨by simp [onLoad], hpauses, fun _ => rfl, h.nets, fun hlocked => ?_⟩,
        fun p hp => ?_⟩ id (fun _ => id)
        hlock.symm hsock.symm fun sFile => ?_
      · cases hlocked
      · cases hp
      · have hsame : s.expected .load sFile = s.original sFile := rfl
        rw [hsame, original, original, hlock]
        rfl
  | unload => exact does_unload h
  | write sFile sText =>
    rw [step]
    have hexpected : ∀ sOther, s.expected (.write sFile sText) sOther =
        if sOther = sFile ∧ s.mod.m_pISpoofLockFile ≠ some sFile then sText else s.original sOther := fun _ => rfl
    by_cases hfile : s.mod.m_pISpoofLockFile = some sFile
    · rw [if_pos hfile]
      refine .quiet s h id (fun _ => id) rfl rfl fun sOther => ?_
      rw [hexpected, if_neg fun hboth => hboth.2 hfile]
    · rw [if_neg hfile]
      refine .quiet _ ⟨⟨h.locked, h.pauses, h.loaded, h.nets, h.saved⟩, h.owner⟩ id
        (fun _ => id) rfl rfl fun sOther => ?_
      by_cases hsame : sOther = sFile
      · rw [hexpected, if_pos ⟨hsame, hfile⟩, hsame, original, if_neg hfile, text, find_insert, if_pos rfl]
        rfl
      · rw [hexpected, if_neg fun hboth => hsame hboth.1, original, original, text, find_insert, if_neg hsame]
        rfl

/-! ## The law -/

theorem Inv.good (h : Inv s) : Good s := by
  have hpauses := h.pauses
  cases hsock : s.mod.m_pIRCSock with
  | none =>
    have hlock : s.mod.m_pISpoofLockFile = none := by simpa [hsock] using h.locked
    rw [hsock] at hpauses
    refine ⟨by simp [hlock, hpauses], by simp [hlock, hpauses], ?_⟩
    rw [hlock]
    constructor
    · intro hlocked
      cases hlocked
    · rintro ⟨p, ⟨howner, -⟩, -⟩
      rw [hsock] at howner
      cases howner
  | some p =>
    have hlock := h.isLocked hsock
    rw [hsock] at hpauses
    refine ⟨by simp [hlock, hpauses], ?_, ?_⟩
    · rw [← not_isSome_iff_eq_none]
      simp [hlock, hpauses]
    · refine iff_of_true hlock ⟨p, ⟨hsock, h.owner p hsock⟩, fun q hq => ?_⟩
      exact some.inj (hq.1.symm.trans hsock)

theorem expected_eq (hev : ∀ sFile sText, ev ≠ .write sFile sText) (sFile : CString) :
    s.expected ev sFile = s.original sFile := by
  cases ev with
  | write sOther sText => exact absurd rfl (hev sOther sText)
  | _ => rfl

theorem Ends.not_write (h : s.Ends ev) (sFile sText : CString) : ev ≠ .write sFile sText := by
  rintro rfl
  exact h

theorem Takes.not_write (h : s.Takes ev) (sFile sText : CString) : ev ≠ .write sFile sText := by
  rintro rfl
  exact h

theorem Takes.free (h : s.Takes ev) : s.mod.m_pISpoofLockFile = none := by
  cases ev with
  | connect => exact h.2.2.2.2
  | _ => cases h

theorem step_inv (h : Inv s) {s' : CZNC} (hstep : s.step ev = some s') : Inv s' := by
  have hdoes := does_step h ev
  rw [hstep] at hdoes
  cases hdoes with
  | quiet _ hinv => exact hinv
  | ends _ hinv => exact hinv
  | aborts _ _ hinv => exact hinv
  | takes _ _ hinv => exact hinv

theorem ends_ok_iff (h : Inv s) {s' : CZNC} (hlocked : s.mod.m_pISpoofLockFile.isSome) (hends : s.Ends ev)
    (hfree : s'.mod.m_pISpoofLockFile = none) (htext : ∀ sFile, s'.original sFile =
      if s.mod.m_pISpoofLockFile = some sFile then s.mod.m_sOrigISpoof else s.original sFile) : Ok s ev s' ↔
        Fits s.before := by
  have hexpected := expected_eq (s := s) hends.not_write
  obtain ⟨path, hpath⟩ := isSome_iff_exists.1 hlocked
  have hbefore : s.original path = s.before := by rw [original, if_pos hpath]
  rw [← readBuffer_eq_iff (h.saved hlocked)]
  constructor
  · intro hok
    have hsame := hok.text path
    rwa [htext, if_pos hpath, hexpected, hbefore] at hsame
  · intro hsaved
    refine ⟨fun _ _ => hfree, fun _ hstays => absurd hends hstays, fun _ hlock => ?_, fun sFile => ?_⟩
    · rw [hfree] at hlock
      cases hlock
    · rw [htext, hexpected]
      split_ifs with hfile
      · rw [hsaved, original, if_pos hfile]
      · rfl

theorem aborts_ok_iff {s' : CZNC} {sOrig : CString} (htakes : s.Takes ev)
    (hread : readBuffer (s.text s.mod.sFile) = some sOrig) (hfree : s'.mod.m_pISpoofLockFile = none)
    (htext : ∀ sFile, s'.original sFile = if sFile = s.mod.sFile then sOrig else s.original sFile) :
    Ok s ev s' ↔ Fits (s.text s.mod.sFile) := by
  have hexpected := expected_eq (s := s) htakes.not_write
  have hbefore : s.original s.mod.sFile = s.text s.mod.sFile := by
    rw [original, htakes.free]
    rfl
  rw [← readBuffer_eq_iff hread]
  constructor
  · intro hok
    have hsame := hok.text s.mod.sFile
    rwa [htext, if_pos rfl, hexpected, hbefore] at hsame
  · intro hsaved
    refine ⟨fun hlocked => ?_, fun hlocked => ?_, fun _ hlock => ?_, fun sFile => ?_⟩
    · rw [htakes.free] at hlocked
      cases hlocked
    · rw [htakes.free] at hlocked
      cases hlocked
    · rw [hfree] at hlock
      cases hlock
    · rw [htext, hexpected]
      split_ifs with hfile
      · rw [hsaved, hfile, hbefore]
      · rfl

theorem step_ok_iff (h : Inv s) (ev : Event) : (∃ s', s.step ev = some s' ∧ Ok s ev s') ↔ s.Meets ev := by
  have hone : ∀ {s'}, (∃ t, some s' = some t ∧ Ok s ev t) ↔ Ok s ev s' := by simp
  have hdoes := does_step h ev
  generalize s.step ev = o at hdoes ⊢
  cases hdoes with
  | quiet s' hinv htakes hends hlock hsock htext =>
    rw [hone]
    refine iff_of_true ⟨fun hlocked hev => absurd hev (hends hlocked), fun _ _ => ⟨hlock, hsock⟩,
      fun hfree hlocked => ?_, htext⟩
      ⟨fun hev => absurd hev htakes, fun hlocked hev => absurd hev (hends hlocked)⟩
    rw [hlock, hfree] at hlocked
    cases hlocked
  | ends s' hinv htakes hlocked hends hfree htext =>
    rw [hone, ends_ok_iff h hlocked hends hfree htext]
    exact ⟨fun hfits => ⟨fun hev => absurd hev htakes, fun _ _ => hfits⟩, fun hmeets => hmeets.ends hlocked hends⟩
  | aborts s' sOrig hinv htakes haborts hread hfree htext =>
    rw [hone, aborts_ok_iff htakes hread hfree htext]
    have hreadable := (readBuffer_isSome_iff _).1 (by rw [hread]; rfl)
    refine ⟨fun hfits => ⟨fun _ => ⟨hreadable, fun _ => hfits⟩, fun hlocked => ?_⟩,
      fun hmeets => (hmeets.takes htakes).2 haborts⟩
    rw [htakes.free] at hlocked
    cases hlocked
  | takes s' sOrig hinv htakes hstays hread howns htext =>
    rw [hone]
    have hreadable := (readBuffer_isSome_iff _).1 (by rw [hread]; rfl)
    have hfree : ¬ s.mod.m_pISpoofLockFile.isSome := by simp [htakes.free]
    refine iff_of_true ⟨fun hlocked => absurd hlocked hfree, fun hlocked => absurd hlocked hfree,
      fun _ _ => howns, fun sFile => ?_⟩
      ⟨fun _ => ⟨hreadable, fun haborts => absurd haborts hstays⟩, fun hlocked => absurd hlocked hfree⟩
    rw [htext, expected_eq htakes.not_write]
  | unread htakes hread =>
    refine iff_of_false (by simp) fun hmeets => ?_
    have hsome := (readBuffer_isSome_iff _).2 (hmeets.takes htakes).1
    rw [hread] at hsome
    cases hsome

end CZNC

/-! ## Runs -/

/-- a step from a state that is there -/
def step (o : Option CZNC) (ev : Event) : Option CZNC := o.bind (CZNC.step · ev)

/-- the state is there, and good -/
def Good (o : Option CZNC) : Prop := ∃ s ∈ o, s.Good

def Ok (o : Option CZNC) (ev : Event) : Prop := ∃ s ∈ o, ∃ s' ∈ step o ev, CZNC.Ok s ev s'

def Meets (o : Option CZNC) (ev : Event) : Prop := ∃ s ∈ o, s.Meets ev

theorem inv_start (sFile sFormat : CString) (files : OrdMap CString CString) :
    (CZNC.start sFile sFormat files).Inv := by
  refine ⟨⟨by simp [CZNC.start], by simp [CZNC.start], fun _ => rfl, fun n p => ?_, fun hlocked => ?_⟩, fun p hp => ?_⟩
  · constructor
    · intro hfind
      cases hfind
    · rintro ⟨sock, hfind, -⟩
      cases hfind
  · cases hlocked
  · cases hp

/-- **The law of the lock** holds in every state and of every step of a run exactly if every file that is locked can be read, and
every one that is released fits the buffer. -/
theorem lock_iff (sFile sFormat : CString) (files : OrdMap CString CString) (evs : List Event) :
    (Runs.States step Good evs (some (.start sFile sFormat files)) ∧
      Runs.Steps step Ok evs (some (.start sFile sFormat files))) ↔
        Runs.Steps step Meets evs (some (.start sFile sFormat files)) := by
  have htrue : Runs.Steps step (fun _ _ => True) evs (some (.start sFile sFormat files)) :=
    Runs.steps_iff.2 fun _ _ _ _ => trivial
  let Inv (o : Option CZNC) : Prop := ∃ s ∈ o, s.Inv
  have hgood : ∀ o, Inv o → Good o := fun _ ⟨s, hs, h⟩ => ⟨s, hs, h.good⟩
  have hto : ∀ o ev, Inv o → True → Meets o ev → Inv (step o ev) ∧ Ok o ev := by
    rintro o ev ⟨s, rfl, h⟩ - ⟨t, ht, hmeets⟩
    obtain rfl := some.inj ht
    obtain ⟨s', hstep, hok⟩ := (CZNC.step_ok_iff h ev).2 hmeets
    exact ⟨⟨s', hstep, CZNC.step_inv h hstep⟩, s, rfl, s', hstep, hok⟩
  have hfrom : ∀ o ev, Inv o → True → Good (step o ev) → Ok o ev → Meets o ev := by
    rintro o ev ⟨s, rfl, h⟩ - - ⟨t, ht, s', hstep, hok⟩
    obtain rfl := some.inj ht
    exact ⟨s, rfl, (CZNC.step_ok_iff h ev).1 ⟨s', hstep, hok⟩⟩
  exact Runs.keeps_iff hgood hto hfrom evs ⟨_, rfl, inv_start sFile sFormat files⟩ htrue

/-- **A text comes back short**: it has a NUL, and what stands behind it is gone when the attempt has registered. -/
theorem short_again :
    let sFile := lit "~/.oidentd.conf"
    let sText := lit "ident" ++ 0 :: lit "tail"
    let evs : List Event := [.load, .connect 0 0 true false id [], .registered 0]
    let o := some (CZNC.start [] [] (.insert .empty sFile sText))
    ((evs.foldl step o).map fun s => s.text sFile) = some (lit "ident") ∧ ¬ Runs.Steps step Ok evs o := by
  intro sFile sText evs o
  have hlocked : ((evs.take 2).foldl step o).map (fun s => s.original sFile) = some sText := by decide
  have hfreed : (step ((evs.take 2).foldl step o) (.registered 0)).map (fun s => s.original sFile) =
    some (lit "ident") := by decide
  refine ⟨by decide, fun hsteps => ?_⟩
  obtain ⟨s, hs, s', hs', hok⟩ := Runs.steps_iff.1 hsteps (evs.take 2) (.registered 0) [] rfl
  have hsame : s'.original sFile = s.original sFile := hok.text sFile
  rw [hs', map_some, hsame] at hfreed
  rw [hs, map_some, some.inj hfreed] at hlocked
  exact absurd (some.inj hlocked) (by decide)

end ZNC.IdentFile
