/-
A `CBuffer` over a whole run: `AddLine`, `UpdateLine`, `UpdateExactLine`, `SetLineCount` and `Clear` of `src/Buffer.cpp`.

The abstract side is a log of everything that was ever added, of which the newest entries can be read. The overloads that take
texts are calls of those that take messages.

Results:
- `updateLoop_eq`: the loop of `UpdateLine` puts the line where the first one of the command stands;
- `apply_refines`: one operation on the buffer is one on the log, and the size it returns is that of the buffer after it;
- `buffer_bounded`: the same of every run from a new buffer.
-/
import ZNC.BufferOverloads
import ZNC.Lib.RecentLog

namespace ZNC

namespace CBuffer

open CString

/-! ## Sizes and the line count -/

def addLineSize (b : CBuffer) (format : CMessage) (sText : CString) : ℕ :=
  if b.uLineCount = 0 then 0 else (b.addLine format sText).lines.length

def updateLineSize (b : CBuffer) (sCommand : CString) (format : CMessage) (sText : CString) : ℕ :=
  match updateLoop sCommand ⟨format, sText⟩ b.lines with
  | some lines => lines.length
  | none => b.addLineSize format sText

def updateExactLineSize (b : CBuffer) (format : CMessage) (sText : CString) : ℕ :=
  if b.holds format then b.lines.length else b.addLineSize format sText

/-- `SetLineCount(u, bForce)`; `uMaxBufferSize` is that of `CZNC` -/
def setLineCount (b : CBuffer) (u : UInt32) (bForce : Bool) (uMaxBufferSize : UInt32) : CBuffer × Bool :=
  if !bForce && uMaxBufferSize < u then (b, false)
  else ({ b with lines := b.lines.drop (b.lines.length - u.toNat), uLineCount := u }, true)

def clear (b : CBuffer) : CBuffer := { b with lines := [] }

/-! ## Runs -/

end CBuffer

/-- a call on a buffer -/
inductive BufferOp where
  | AddLine (format : CMessage) (sText : CString)
  | UpdateLine (sCommand : CString) (format : CMessage) (sText : CString)
  | UpdateExactLine (format : CMessage) (sText : CString)
  | SetLineCount (u : UInt32) (bForce : Bool) (uMaxBufferSize : UInt32)
  | Clear

/-- what a call returns -/
inductive BufferReply where
  | size (n : ℕ)
  | done (b : Bool)
  | nothing
deriving DecidableEq

/-- a call with messages or with texts -/
inductive BufferCall where
  | message (op : BufferOp)
  | AddText (sFormat sText : CString) (ts : Option timeval) (mssTags : MCString)
  | UpdateText (sMatch sFormat sText : CString)
  | UpdateExactText (sFormat sText : CString)

/-- the call that is made with messages in the end -/
def BufferCall.op (utils : CUtils) : BufferCall → Option BufferOp
  | .message op => some op
  | .AddText sFormat sText ts mssTags =>
    (CMessage.ofLine utils sFormat).map fun message => .AddLine (CBuffer.stamped message ts mssTags) sText
  | .UpdateText sMatch sFormat sText =>
    (CMessage.ofLine utils sMatch).bind fun messageMatch =>
      (CMessage.ofLine utils sFormat).map fun message => .UpdateLine messageMatch.sCommand message sText
  | .UpdateExactText sFormat sText => some (.UpdateExactLine (CBuffer.senderMessage utils sFormat sText) [])

namespace CBuffer

/-- the buffer after a call, and what the call returns -/
def apply (b : CBuffer) : BufferOp → CBuffer × BufferReply
  | .AddLine format sText => (b.addLine format sText, .size (b.addLineSize format sText))
  | .UpdateLine sCommand format sText =>
    (b.updateLine sCommand format sText, .size (b.updateLineSize sCommand format sText))
  | .UpdateExactLine format sText => (b.updateExactLine format sText, .size (b.updateExactLineSize format sText))
  | .SetLineCount u bForce uMaxBufferSize =>
    ((b.setLineCount u bForce uMaxBufferSize).1, .done (b.setLineCount u bForce uMaxBufferSize).2)
  | .Clear => (b.clear, .nothing)

/-- a buffer after a run of calls; `none` if a text is never read to its end -/
def run (utils : CUtils) (b : CBuffer) (calls : List BufferCall) : Option CBuffer :=
  calls.foldlM (fun b call => (call.op utils).map fun op => (b.apply op).1) b

/-! ## The log behind a buffer -/

/-- an operation on the log -/
def track (r : RecentLog CBufLine) : BufferOp → RecentLog CBufLine
  | .AddLine format sText => r.push ⟨format, sText⟩
  | .UpdateLine sCommand format sText => r.amend (fun l => l.message.sCommand.equals sCommand) ⟨format, sText⟩
  | .UpdateExactLine format sText => r.pushUnless (fun l => l.message.equals format) ⟨format, sText⟩
  | .SetLineCount u bForce uMaxBufferSize => if bForce || u ≤ uMaxBufferSize then r.limit u.toNat else r
  | .Clear => r.forget

/-- the buffer holds what can be read of the log -/
structure Holds (b : CBuffer) (r : RecentLog CBufLine) : Prop where
  lines : b.lines = r.recent
  bound : b.uLineCount.toNat = r.bound

theorem updateLoop_eq (sCommand : CString) (line : CBufLine) (ls : List CBufLine) :
    updateLoop sCommand line ls =
      (ls.findIdx? fun l => l.message.sCommand.equals sCommand).map fun i => ls.set i line := by
  induction ls with
  | nil => rfl
  | cons l ls ih =>
    rw [updateLoop, List.findIdx?_cons]
    split_ifs
    · rfl
    · rw [ih, Option.map_map, Option.map_map]
      rfl

variable {b : CBuffer} {r : RecentLog CBufLine}

theorem Holds.length (h : b.Holds r) : b.lines.length = r.kept := by
  rw [h.lines, r.length_recent]

theorem Holds.addLine (h : b.Holds r) (format : CMessage) (sText : CString) :
    (b.addLine format sText).Holds (r.push ⟨format, sText⟩) := by
  have hlen := h.length
  have hbound := h.bound
  have hkept := r.kept_le_bound
  unfold CBuffer.addLine
  split_ifs with h0
  · have hzero : r.bound = 0 := by rw [← hbound, h0]; rfl
    refine ⟨?_, hbound⟩
    rw [RecentLog.recent_push, List.drop_of_length_le (by rw [List.length_append, r.length_recent]; simp; omega)]
    exact List.length_eq_zero_iff.1 (by omega)
  · have hpos : b.uLineCount.toNat ≠ 0 := fun hz => h0 (UInt32.toNat_inj.1 hz)
    refine ⟨?_, hbound⟩
    let line : CBufLine := ⟨format, sText⟩
    calc b.lines.drop (b.lines.length + 1 - b.uLineCount.toNat) ++ [line]
        = (b.lines ++ [line]).drop (r.kept + 1 - r.bound) := by
          rw [List.drop_append_of_le_length (by omega), hlen, hbound]
      _ = (r.push line).recent := by rw [RecentLog.recent_push, h.lines]

theorem Holds.addLineSize (h : b.Holds r) (format : CMessage) (sText : CString) :
    b.addLineSize format sText = (b.addLine format sText).lines.length := by
  unfold CBuffer.addLineSize
  split_ifs with h0
  · have hlen := h.length
    have hbound := h.bound
    have hkept := r.kept_le_bound
    have hzero : b.uLineCount.toNat = 0 := by rw [h0]; rfl
    rw [CBuffer.addLine, if_pos h0]
    omega
  · rfl

theorem Holds.updateLine (h : b.Holds r) (sCommand : CString) (format : CMessage) (sText : CString) :
    (b.updateLine sCommand format sText).Holds
        (r.amend (fun l => l.message.sCommand.equals sCommand) ⟨format, sText⟩) ∧
      b.updateLineSize sCommand format sText = (b.updateLine sCommand format sText).lines.length := by
  unfold CBuffer.updateLine CBuffer.updateLineSize RecentLog.amend
  rw [updateLoop_eq, h.lines]
  cases r.recent.findIdx? fun l => l.message.sCommand.equals sCommand with
  | some i => exact ⟨⟨(r.recent_replaceAt i _).symm, h.bound⟩, rfl⟩
  | none => exact ⟨h.addLine format sText, h.addLineSize format sText⟩

theorem Holds.updateExactLine (h : b.Holds r) (format : CMessage) (sText : CString) :
    (b.updateExactLine format sText).Holds (r.pushUnless (fun l => l.message.equals format) ⟨format, sText⟩) ∧
      b.updateExactLineSize format sText = (b.updateExactLine format sText).lines.length := by
  unfold CBuffer.updateExactLine CBuffer.updateExactLineSize RecentLog.pushUnless CBuffer.holds
  rw [h.lines]
  split_ifs
  · exact ⟨h, by rw [h.lines]⟩
  · exact ⟨h.addLine format sText, h.addLineSize format sText⟩

theorem Holds.setLineCount (h : b.Holds r) (u : UInt32) (bForce : Bool) (uMaxBufferSize : UInt32) :
    (b.setLineCount u bForce uMaxBufferSize).1.Holds (if bForce || u ≤ uMaxBufferSize then r.limit u.toNat else r) := by
  have hcond : (!bForce && decide (uMaxBufferSize < u)) = !(bForce || decide (u ≤ uMaxBufferSize)) := by
    rw [Bool.not_or, ← decide_not]
    exact congrArg _ (decide_eq_decide.2 UInt32.not_le.symm)
  unfold CBuffer.setLineCount
  rw [hcond]
  cases bForce || decide (u ≤ uMaxBufferSize) with
  | false => exact h
  | true =>
    refine ⟨?_, rfl⟩
    change b.lines.drop (b.lines.length - u.toNat) = (r.limit u.toNat).recent
    rw [r.recent_limit, h.length, h.lines]

theorem apply_refines (h : b.Holds r) (op : BufferOp) :
    (b.apply op).1.Holds (track r op) ∧ ∀ n, (b.apply op).2 = .size n → n = (b.apply op).1.lines.length := by
  cases op with
  | AddLine format sText =>
    refine ⟨h.addLine format sText, fun n hn => ?_⟩
    rw [← BufferReply.size.inj hn]
    exact h.addLineSize format sText
  | UpdateLine sCommand format sText =>
    obtain ⟨hholds, hsize⟩ := h.updateLine sCommand format sText
    refine ⟨hholds, fun n hn => ?_⟩
    rw [← BufferReply.size.inj hn]
    exact hsize
  | UpdateExactLine format sText =>
    obtain ⟨hholds, hsize⟩ := h.updateExactLine format sText
    refine ⟨hholds, fun n hn => ?_⟩
    rw [← BufferReply.size.inj hn]
    exact hsize
  | SetLineCount u bForce uMaxBufferSize =>
    exact ⟨h.setLineCount u bForce uMaxBufferSize, fun n hn => BufferReply.noConfusion hn⟩
  | Clear => exact ⟨⟨r.recent_forget.symm, h.bound⟩, fun n hn => BufferReply.noConfusion hn⟩

theorem run_refines {utils : CUtils} {calls : List BufferCall} {b' : CBuffer} (h : b.Holds r)
    (hrun : b.run utils calls = some b') :
    ∃ ops, calls.mapM (BufferCall.op utils) = some ops ∧ b'.Holds (ops.foldl track r) := by
  induction calls generalizing b r with
  | nil =>
    rw [run, List.foldlM_nil, Option.pure_def, Option.some_inj] at hrun
    exact ⟨[], rfl, hrun ▸ h⟩
  | cons call calls ih =>
    rw [run, List.foldlM_cons, Option.bind_eq_bind, Option.bind_eq_some_iff] at hrun
    obtain ⟨b1, hstep, hrun⟩ := hrun
    obtain ⟨op, hop, rfl⟩ := Option.map_eq_some_iff.1 hstep
    obtain ⟨ops, hops, hholds⟩ := ih (apply_refines h op).1 hrun
    refine ⟨op :: ops, ?_, hholds⟩
    rw [List.mapM_cons, hop, hops]
    rfl

/-- **A buffer over a whole run of calls.** It never holds more lines than its line count, and it holds the newest lines of the
log of everything that was added, in their order. Whatever is called next returns the number of lines that are then stored. -/
theorem buffer_bounded (utils : CUtils) (uLineCount : UInt32) (calls : List BufferCall) (b : CBuffer)
    (h : (⟨[], uLineCount⟩ : CBuffer).run utils calls = some b) :
    ∃ ops, calls.mapM (BufferCall.op utils) = some ops ∧
      let r := ops.foldl track (RecentLog.empty uLineCount.toNat)
      b.lines = r.recent ∧ b.lines.length = r.kept ∧ b.uLineCount.toNat = r.bound ∧
        b.lines.length ≤ b.uLineCount.toNat ∧
        ∀ op n, (b.apply op).2 = .size n → n = (b.apply op).1.lines.length := by
  have hinit : (⟨[], uLineCount⟩ : CBuffer).Holds (RecentLog.empty uLineCount.toNat) := ⟨rfl, rfl⟩
  obtain ⟨ops, hops, hholds⟩ := run_refines hinit h
  refine ⟨ops, hops, hholds.lines, hholds.length, hholds.bound, ?_, fun op => (apply_refines hholds op).2⟩
  rw [hholds.length, hholds.bound]
  exact RecentLog.kept_le_bound _

/-- three lines for a buffer of two, and another text for the second one -/
def sampleCalls : List BufferCall :=
  [.AddText (lit "PING a") [] none .empty, .AddText (lit "PONG b") [] none .empty,
    .AddText (lit "AWAY c") [] none .empty,
    .UpdateText (lit "pong") (lit "PONG d") (lit "text")]

/-- a message from nobody with one parameter -/
def sampleMessage (sCommand sParam : CString) (eType : EType) : CMessage :=
  ⟨.empty, sCommand, [sParam], .empty, ⟨0, 0⟩, eType, false⟩

/-- what they leave -/
def sampleBuffer : CBuffer :=
  ⟨[⟨sampleMessage (lit "PONG") (lit "d") .Pong, lit "text"⟩, ⟨sampleMessage (lit "AWAY") (lit "c") .Away, []⟩], 2⟩

theorem buffer_bounded_sample :
    ∃ ops, sampleCalls.mapM (BufferCall.op CMessage.stoppedClock) = some ops ∧
      let r := ops.foldl track (RecentLog.empty 2)
      sampleBuffer.lines = r.recent ∧ sampleBuffer.lines.length = r.kept ∧ sampleBuffer.uLineCount.toNat = r.bound ∧
        sampleBuffer.lines.length ≤ sampleBuffer.uLineCount.toNat ∧
        ∀ op n, (sampleBuffer.apply op).2 = .size n → n = (sampleBuffer.apply op).1.lines.length := by
  apply buffer_bounded CMessage.stoppedClock 2 sampleCalls sampleBuffer
  decide +kernel

end CBuffer

end ZNC
