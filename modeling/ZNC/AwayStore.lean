/-
The messages of `modules/awaystore.cpp`: Replay, Show and Delete.

A message that comes in while the user is away is stored as one text: its time, the mask of the sender and what it says,
with a space behind each of the first two. Show cuts the text at spaces; Replay cuts it at colons.

Model: the mask of a sender is a word of the line that brought the message, and so is the nick of the client; neither has
a space. `strftime` stands for the local time of a time stamp as the C library writes it. The file on disk, the timer
and the AWAY of the server take no part in it.

Results:
- `shows_iff`: the messages of which Show lists each with its text;
- `deletes`: Show numbers the messages by their places, and Delete takes the one at its place;
- `away_messages_iff`: all of this after every run;
- `away_replay_one`: one message, and what Replay sends for it.
-/
import Mathlib.Data.List.InsertIdx
import ZNC.ModuleLine
import ZNC.UserConfig
import ZNC.Lib.Listing

namespace ZNC.AwayStore

open CString Words ModuleLine NetworkClone List

/-! ## Model -/

abbrev Word : Type := { s : CString // ch ' ' ∉ s }

abbrev Time : Type := { n : ℕ // n < 2 ^ 63 }

/-- who a message comes from: its mask is a word -/
structure Sender where
  Nick : CNick
  word : ch ' ' ∉ Nick.getNickMask

structure CAway where
  m_bIsAway : Bool
  m_vMessages : VCString
  m_saveMessages : Bool
  m_chanMessages : Bool
  /-- the lines of `PutModule` and `PutModNotice` -/
  vsModule : VCString

/-- `msvOutput`, and the messages and the lines that there are by then -/
structure Output where
  m_vMessages : VCString
  msvOutput : OrdMap CString VCString
  vsModule : VCString

namespace CAway

def putModule (s : CAway) (sLine : CString) : CAway := { s with vsModule := s.vsModule ++ [sLine] }

/-- `AddMessage(sText)` -/
def addText (s : CAway) (sText : CString) : CAway :=
  if s.m_saveMessages then { s with m_vMessages := s.m_vMessages ++ [sText] } else s

/-- `AddMessage(iTime, Nick, sMessage)`; `sIRCNick` is the user's own nick -/
def addMessage (s : CAway) (sIRCNick : CString) (iTime : Time) (Nick : CNick) (sMessage : CString) : CAway :=
  if Nick.sNick = sIRCNick then s
  else s.addText (uintText iTime ++ lit " " ++ Nick.getNickMask ++ lit " " ++ sMessage)

def onPrivMsg (s : CAway) (sIRCNick : CString) (iTime : Time) (Nick : CNick) (sMessage : CString) : CAway :=
  if s.m_bIsAway then s.addMessage sIRCNick iTime Nick sMessage else s

def onPrivAction (s : CAway) (sIRCNick : CString) (iTime : Time) (Nick : CNick) (sMessage : CString) : CAway :=
  if s.m_bIsAway then s.addMessage sIRCNick iTime Nick (lit "* " ++ sMessage) else s

def onChanMsg (s : CAway) (sIRCNick sCurNick : CString) (iTime : Time) (Nick : CNick) (sChan sMessage : CString) :
    CAway :=
  if s.m_bIsAway && s.m_chanMessages && decide (sCurNick.asLower <:+: sMessage.asLower) then
    s.addMessage sIRCNick iTime Nick (sChan ++ lit " " ++ sMessage)
  else s

def replayLine (sWhom nick sMessage : CString) : CString :=
  lit ":" ++ sWhom ++ lit " PRIVMSG " ++ nick ++ lit " :" ++ sMessage

/-- the lines that `ReplayCommand` sends -/
def replayCommand (s : CAway) (nick : CString) : VCString :=
  s.m_vMessages.map fun sEntry =>
    let sWhom := sEntry.token 1 false (ch ':') false
    let sMessage := sEntry.token 2 true (ch ':') false
    replayLine sWhom nick sMessage

def deleteCommand (s : CAway) (sCommand : CString) : CAway :=
  let sWhich := tok sCommand 1
  if sWhich = lit "all" then
    { s with m_vMessages := [] }.putModule (lit "Deleted " ++ uintText s.m_vMessages.length ++ lit " messages")
  else if sWhich = [] then s.putModule (lit "USAGE: delete <num|all>")
  else
    let iNum := sWhich.toUInt.toNat
    if s.m_vMessages.length ≤ iNum then s.putModule (lit "Illegal message # requested")
    else { s with m_vMessages := s.m_vMessages.eraseIdx iNum }.putModule (lit "Message erased")

/-- what Delete leaves of a list -/
def erased {α : Type} (sCommand : CString) (l : List α) : List α :=
  let sWhich := tok sCommand 1
  if sWhich = lit "all" then [] else if sWhich = [] then l else l.eraseIdx sWhich.toUInt.toNat

/-- an entry that Show does not find corrupt -/
def stays (strftime : UInt64 → CString) (sEntry : CString) : Bool :=
  tok sEntry 0 ≠ [] && tok sEntry 1 ≠ [] && rest sEntry 2 ≠ [] && strftime (tok sEntry 0).strtoul ≠ []

def rowText (szFormat sMessage : CString) (a : ℕ) : CString :=
  lit "    " ++ uintText a ++ lit ") [" ++ szFormat ++ lit "] " ++ sMessage

/-- one turn of the loop of `ShowCommand`; the index is the number of the messages that have stayed -/
def showStep (strftime : UInt64 → CString) (r : Output) (sEntry : CString) : Output :=
  let sTime := tok sEntry 0
  let sWhom := tok sEntry 1
  let sMessage := rest sEntry 2
  if sTime = [] ∨ sWhom = [] ∨ sMessage = [] then
    { r with vsModule := r.vsModule ++ [lit "Corrupt message! [" ++ sEntry ++ lit "]"] }
  else
    let szFormat := strftime sTime.strtoul
    if szFormat = [] then { r with vsModule := r.vsModule ++ [lit "Corrupt time stamp! [" ++ sEntry ++ lit "]"] }
    else
      { r with
        m_vMessages := r.m_vMessages ++ [sEntry]
        msvOutput := r.msvOutput.insert sWhom
          ((r.msvOutput.find sWhom).getD [] ++ [rowText szFormat sMessage r.m_vMessages.length]) }

def showLoop (strftime : UInt64 → CString) (s : CAway) : Output :=
  s.m_vMessages.foldl (showStep strftime) ⟨[], .empty, s.vsModule⟩

/-- `ShowCommand`; it prints the groups behind what the loop has said -/
def showCommand (strftime : UInt64 → CString) (s : CAway) : CAway :=
  let r := showLoop strftime s
  { s with
    m_vMessages := r.m_vMessages
    vsModule := r.vsModule ++ r.msvOutput.entries.flatMap (fun it => it.1 :: it.2) ++ [lit "#--- End of messages"] }

end CAway

open CAway

/-- a message that was stored -/
structure Stored where
  iTime : Time
  sMask : Word
  sText : { s : CString // s ≠ [] }

/-- the module, and the messages that it stored and has not erased -/
structure World where
  s : CAway
  vStored : List Stored

/-- a module that was loaded without stored messages -/
def World.start (m_saveMessages m_chanMessages : Bool) : World := ⟨⟨false, [], m_saveMessages, m_chanMessages, []⟩, []⟩

inductive Op where
  | privMsg (sIRCNick : CString) (iTime : Time) (From : Sender) (sMessage : { s : CString // s ≠ [] })
  | privAction (sIRCNick : CString) (iTime : Time) (From : Sender) (sMessage : CString)
  | chanMsg (sIRCNick sCurNick : CString) (iTime : Time) (From : Sender) (sChan sMessage : CString)
  | away (b : Bool)
  | deleteCommand (sCommand : CString)
  | showCommand

def World.after (w : World) (s : CAway) (iTime : Time) (From : Sender) (sText : { s : CString // s ≠ [] }) : World :=
  ⟨s, if s.m_vMessages.length = w.s.m_vMessages.length then w.vStored
    else w.vStored ++ [⟨iTime, ⟨From.Nick.getNickMask, From.word⟩, sText⟩]⟩

def entryText (m : Stored) : CString := uintText m.iTime ++ lit " " ++ m.sMask.1 ++ lit " " ++ m.sText.1

def exec (strftime : UInt64 → CString) (w : World) : Op → World
  | .privMsg sIRCNick iTime From sMessage =>
    w.after (w.s.onPrivMsg sIRCNick iTime From.Nick sMessage) iTime From sMessage
  | .privAction sIRCNick iTime From sMessage =>
    w.after (w.s.onPrivAction sIRCNick iTime From.Nick sMessage) iTime From
      ⟨lit "* " ++ sMessage, append_ne_nil_of_left_ne_nil (by decide) _⟩
  | .chanMsg sIRCNick sCurNick iTime From sChan sMessage =>
    w.after (w.s.onChanMsg sIRCNick sCurNick iTime From.Nick sChan sMessage) iTime From
      ⟨sChan ++ lit " " ++ sMessage,
        append_ne_nil_of_left_ne_nil (append_ne_nil_of_right_ne_nil _ (by decide)) _⟩
  | .away b => { w with s := { w.s with m_bIsAway := b } }
  | .deleteCommand sCommand => ⟨w.s.deleteCommand sCommand, erased sCommand w.vStored⟩
  | .showCommand => ⟨w.s.showCommand strftime, w.vStored.filter fun m => stays strftime (entryText m)⟩

/-! ## Statement -/

/-- Replay sends each message from its sender, with its text -/
def Replays (nick : Word) (w : World) : Prop :=
  w.s.replayCommand nick.1 = w.vStored.map fun m => replayLine m.sMask.1 nick.1 m.sText.1

/-- the rows of a sender, with the texts of its messages -/
def rowsOf (strftime : UInt64 → CString) (sWhom : CString) (vStored : List Stored) : VCString :=
  (vStored.zipIdx.filter fun x => x.1.sMask.1 = sWhom).map fun x =>
    rowText (strftime (UInt64.ofNat x.1.iTime)) x.1.sText.1 x.2

/-- Show lists each message once under its sender, with its text -/
def Shows (strftime : UInt64 → CString) (w : World) : Prop :=
  ∀ sWhom, (w.s.showLoop strftime).msvOutput.find sWhom =
    if rowsOf strftime sWhom w.vStored = [] then none else some (rowsOf strftime sWhom w.vStored)

/-- behind Show, the rows are those of the messages at the places of their numbers, and Delete takes the one at its
place -/
def Deletes (strftime : UInt64 → CString) (w : World) : Prop :=
  (∀ sWhom sRow, (∃ vsRows, (w.s.showLoop strftime).msvOutput.find sWhom = some vsRows ∧ sRow ∈ vsRows) ↔
    ∃ (a : ℕ) (sEntry : CString), (w.s.showCommand strftime).m_vMessages[a]? = some sEntry ∧ tok sEntry 1 = sWhom ∧
      sRow = rowText (strftime (tok sEntry 0).strtoul) (rest sEntry 2) a) ∧
  ∀ (sCommand : CString) (a : ℕ), a < 2 ^ 32 → tok sCommand 1 = uintText a →
    ((w.s.showCommand strftime).deleteCommand sCommand).m_vMessages =
      (w.s.showCommand strftime).m_vMessages.eraseIdx a

/-- a sender, a time stamp that can be written, and a text without a space in front -/
def Showable (strftime : UInt64 → CString) (m : Stored) : Prop :=
  m.sMask.1 ≠ [] ∧ m.sText.1.head? ≠ some (ch ' ') ∧ strftime (UInt64.ofNat m.iTime) ≠ []

/-! ## The messages that are there -/

theorem entryText_eq (m : Stored) :
    entryText m = uintText m.iTime ++ ch ' ' :: (m.sMask.1 ++ ch ' ' :: m.sText.1) := by
  have hspace : lit " " = [ch ' '] := rfl
  simp only [entryText, hspace, append_assoc, cons_append, nil_append]

/-- the store has the texts of the messages -/
def Inv (w : World) : Prop := w.s.m_vMessages = w.vStored.map entryText

variable (strftime : UInt64 → CString) (s : CAway) {w : World}

theorem deleteCommand_messages (sCommand : CString) :
    (s.deleteCommand sCommand).m_vMessages = erased sCommand s.m_vMessages := by
  unfold deleteCommand erased
  dsimp only
  split_ifs with hall hnone hlen
  · rfl
  · rfl
  · exact (eraseIdx_of_length_le hlen).symm
  · rfl

theorem erased_map {α β : Type} (f : α → β) (sCommand : CString) (l : List α) :
    erased sCommand (l.map f) = (erased sCommand l).map f := by
  unfold erased
  dsimp only
  split_ifs
  · rfl
  · rfl
  · exact eraseIdx_map f l _

/-- an entry that Show lists, and its row -/
def shown (strftime : UInt64 → CString) (sEntry : CString) : Option (CString × (ℕ → CString)) :=
  if stays strftime sEntry then
    some (tok sEntry 1, rowText (strftime (tok sEntry 0).strtoul) (rest sEntry 2))
  else none

theorem isSome_shown (sEntry : CString) :
    (shown strftime sEntry).isSome = stays strftime sEntry := by
  unfold shown
  split <;> simp_all

/-- what a turn of Show's loop keeps, as a listing -/
def Output.listing (r : Output) : Listing.Shown CString CString CString := ⟨r.m_vMessages, r.msvOutput⟩

theorem showStep_listing (r : Output) (sEntry : CString) :
    Listing.step (shown strftime) r.listing sEntry = (showStep strftime r sEntry).listing := by
  unfold showStep Listing.step shown stays
  dsimp only
  by_cases hcorrupt : tok sEntry 0 = [] ∨ tok sEntry 1 = [] ∨ rest sEntry 2 = []
  · have hno : (decide (tok sEntry 0 ≠ []) && decide (tok sEntry 1 ≠ []) && decide (rest sEntry 2 ≠ []) &&
        decide (strftime (tok sEntry 0).strtoul ≠ [])) = false := by
      rcases hcorrupt with h | h | h <;> simp [h]
    rw [if_pos hcorrupt, hno]
    rfl
  · obtain ⟨htime, hwhom, hmessage⟩ : tok sEntry 0 ≠ [] ∧ tok sEntry 1 ≠ [] ∧ rest sEntry 2 ≠ [] := by
      simpa [not_or] using hcorrupt
    rw [if_neg hcorrupt]
    by_cases hstamp : strftime (tok sEntry 0).strtoul = []
    · simp only [hstamp, if_true, ne_eq, not_true_eq_false, decide_false, Bool.and_false, Bool.false_eq_true, if_false]
      rfl
    · simp only [hstamp, htime, hwhom, hmessage, if_false, ne_eq, not_false_eq_true, decide_true, Bool.and_self, if_true]
      rfl

/-- **The loop of Show is a listing.** -/
theorem showLoop_listing :
    s.m_vMessages.foldl (Listing.step (shown strftime)) .start = (s.showLoop strftime).listing := by
  have hstart : (.start : Listing.Shown CString CString CString) = Output.listing ⟨[], .empty, s.vsModule⟩ := rfl
  rw [hstart, showLoop]
  exact foldl_hom Output.listing (showStep_listing strftime)

theorem showCommand_messages :
    (s.showCommand strftime).m_vMessages = s.m_vMessages.filter (stays strftime) := by
  have hleft : (s.showLoop strftime).m_vMessages =
      (s.m_vMessages.foldl (Listing.step (shown strftime)) .start).left := by
    rw [showLoop_listing]
    rfl
  rw [Listing.listing_left] at hleft
  exact hleft.trans (filter_congr fun sEntry _ => isSome_shown strftime sEntry)

/-- the messages that Show leaves -/
def left (strftime : UInt64 → CString) (w : World) : List Stored :=
  w.vStored.filter fun m => stays strftime (entryText m)

theorem showCommand_left (h : Inv w) :
    (w.s.showCommand strftime).m_vMessages = (left strftime w).map entryText := by
  rw [showCommand_messages, h, left, filter_map, Function.comp_def]

theorem showLoop_find (sWhom : CString) :
    (s.showLoop strftime).msvOutput.find sWhom =
      if Listing.rows (shown strftime) sWhom (s.showCommand strftime).m_vMessages = [] then none
      else some (Listing.rows (shown strftime) sWhom (s.showCommand strftime).m_vMessages) := by
  have hgroups : (s.showLoop strftime).msvOutput =
      (s.m_vMessages.foldl (Listing.step (shown strftime)) .start).groups := by
    rw [showLoop_listing]
    rfl
  rw [hgroups, Listing.listing_find, showLoop_listing]
  rfl

theorem addMessage_messages (sIRCNick : CString) (iTime : Time) (Nick : CNick) (sText : CString) :
    ((s.addMessage sIRCNick iTime Nick sText).m_vMessages = s.m_vMessages) ∨
      ((s.addMessage sIRCNick iTime Nick sText).m_vMessages =
        s.m_vMessages ++ [uintText iTime ++ lit " " ++ Nick.getNickMask ++ lit " " ++ sText]) := by
  unfold addMessage addText
  split_ifs
  · exact .inl rfl
  · exact .inr rfl
  · exact .inl rfl

theorem after_inv (h : Inv w) {s : CAway} (iTime : Time) (From : Sender) (sText : { s : CString // s ≠ [] })
    (hs : s.m_vMessages = w.s.m_vMessages ∨ s.m_vMessages =
      w.s.m_vMessages ++ [uintText iTime ++ lit " " ++ From.Nick.getNickMask ++ lit " " ++ sText]) :
    Inv (w.after s iTime From sText) := by
  unfold Inv World.after
  rcases hs with hs | hs
  · rw [if_pos (by rw [hs])]
    exact hs.trans h
  · have hne : s.m_vMessages.length ≠ w.s.m_vMessages.length := by
      rw [hs, length_append, length_singleton]
      omega
    rw [if_neg hne, map_append, ← h]
    exact hs

/-- **The store has the texts of the messages**, whatever happens. -/
theorem exec_inv (h : Inv w) (op : Op) : Inv (exec strftime w op) := by
  cases op with
  | privMsg sIRCNick iTime From sMessage =>
    refine after_inv h iTime From sMessage ?_
    unfold onPrivMsg
    split
    · exact addMessage_messages _ _ _ _ _
    · exact .inl rfl
  | privAction sIRCNick iTime From sMessage =>
    refine after_inv h iTime From _ ?_
    unfold onPrivAction
    split
    · exact addMessage_messages _ _ _ _ _
    · exact .inl rfl
  | chanMsg sIRCNick sCurNick iTime From sChan sMessage =>
    refine after_inv h iTime From _ ?_
    unfold onChanMsg
    split
    · exact addMessage_messages _ _ _ _ _
    · exact .inl rfl
  | away b => exact h
  | deleteCommand sCommand =>
    have herased := deleteCommand_messages w.s sCommand
    rw [h, erased_map] at herased
    exact herased
  | showCommand => exact showCommand_left strftime h

theorem run_inv (bSave bChan : Bool) (ops : List Op) :
    Inv (ops.foldl (exec strftime) (.start bSave bChan)) := by
  have hstart : Inv (.start bSave bChan) := rfl
  generalize World.start bSave bChan = w at hstart
  induction ops generalizing w with
  | nil => exact hstart
  | cons op ops ih => exact ih _ (exec_inv strftime hstart op)

/-! ## Replay -/

theorem word_behind {sep : UInt8} {p t : CString} (h : (word sep p).2 = t) (hne : t ≠ []) :
    ∃ front, p = front ++ sep :: t := by
  have hword : p = p.takeWhile (· ≠ sep) ++ p.dropWhile (· ≠ sep) := takeWhile_append_dropWhile.symm
  have hrun : p.dropWhile (· ≠ sep) = (p.dropWhile (· ≠ sep)).takeWhile (· = sep) ++ t := by
    rw [← h]
    exact takeWhile_append_dropWhile.symm
  have hseps : (p.dropWhile (· ≠ sep)).takeWhile (· = sep) ≠ [] := by
    intro hnil
    rw [hnil, nil_append] at hrun
    have hhead := head?_dropWhile_not (· ≠ sep) p
    have hhead' := head_word sep p
    rw [hrun] at hhead
    rw [h] at hhead'
    cases t with
    | nil => exact hne rfl
    | cons c t => exact hhead' (by simpa using hhead)
  obtain ⟨seps, c, hlast⟩ : ∃ seps c, (p.dropWhile (· ≠ sep)).takeWhile (· = sep) = seps ++ [c] :=
    ⟨_, _, (dropLast_append_getLast hseps).symm⟩
  have hc : c = sep := by
    have hmem : c ∈ (p.dropWhile (· ≠ sep)).takeWhile (· = sep) := by
      rw [hlast]
      exact mem_append_right _ (mem_singleton_self c)
    simpa using mem_takeWhile_imp hmem
  refine ⟨p.takeWhile (· ≠ sep) ++ seps, ?_⟩
  calc p = p.takeWhile (· ≠ sep) ++ (seps ++ [c] ++ t) := by rw [← hlast, ← hrun, ← hword]
    _ = _ := by rw [hc, append_assoc, append_assoc, singleton_append]

theorem token_behind {s t : CString} {sep : UInt8} (h : s.token 2 true sep false = t) (hne : t ≠ []) :
    ∃ front, s = front ++ sep :: t := by
  have hword : (word sep (word sep (s.dropWhile (· = sep))).2).2 = t := by
    rw [← h]
    simp only [token, Bool.false_eq_true, if_false, if_true, skipTokens_word, skipTokens]
  obtain ⟨front, hfront⟩ := word_behind hword hne
  have hsuffix : (word sep (s.dropWhile (· = sep))).2 <:+ s :=
    ((dropWhile_suffix _).trans (dropWhile_suffix _)).trans (dropWhile_suffix _)
  obtain ⟨pre, hpre⟩ := hsuffix
  refine ⟨pre ++ front, ?_⟩
  rw [← hpre, hfront, append_assoc]

theorem split_space {a b x y : CString} (ha : ch ' ' ∉ a) (hb : ch ' ' ∉ b) (h : a ++ ch ' ' :: x = b ++ ch ' ' :: y) :
    a = b ∧ x = y := by
  have hcut := cut_append ha x
  rw [h, cut_append hb, Option.some_inj, Prod.mk.injEq] at hcut
  exact ⟨hcut.1.symm, hcut.2.symm⟩

theorem replayLine_eq (sWhom nick sMessage : CString) : replayLine sWhom nick sMessage =
    ch ':' :: (sWhom ++ ch ' ' :: (lit "PRIVMSG" ++ ch ' ' :: (nick ++ ch ' ' :: ch ':' :: sMessage))) := by
  have hfirst : lit ":" = [ch ':'] := by decide
  have hname : lit " PRIVMSG " = ch ' ' :: (lit "PRIVMSG" ++ [ch ' ']) := by decide
  have htext : lit " :" = [ch ' ', ch ':'] := by decide
  simp only [replayLine, hfirst, hname, htext, append_assoc, cons_append, nil_append]

theorem space_not_mem_sender {sWhom sMask nick sMessage sText : CString} (hwhom : ch ':' ∉ sWhom)
    (hmask : ch ' ' ∉ sMask) (hnick : ch ' ' ∉ nick)
    (h : replayLine sWhom nick sMessage = replayLine sMask nick sText) : ch ' ' ∉ sWhom := by
  intro h1
  have hname : ch ' ' ∉ lit "PRIVMSG" := by decide
  have hfirst : ∀ x y, lit "PRIVMSG" ++ x ≠ ch ':' :: y := fun x y heq => by
    have hhead := congrArg List.head? heq
    rw [head?_append_of_ne_nil _ (by decide), head?_cons] at hhead
    exact absurd hhead (by decide)
  rw [replayLine_eq, replayLine_eq, cons_inj_right] at h
  obtain ⟨w1, w2, rfl, hw1⟩ := eq_append_cons_of_mem h1
  rw [append_assoc, cons_append] at h
  obtain ⟨-, h⟩ := split_space hw1 hmask h
  by_cases h2 : ch ' ' ∈ w2
  · obtain ⟨w3, w4, rfl, hw3⟩ := eq_append_cons_of_mem h2
    rw [append_assoc, cons_append] at h
    obtain ⟨-, h⟩ := split_space hw3 hname h
    by_cases h3 : ch ' ' ∈ w4
    · obtain ⟨w5, w6, rfl, hw5⟩ := eq_append_cons_of_mem h3
      rw [append_assoc, cons_append] at h
      obtain ⟨-, h⟩ := split_space hw5 hnick h
      cases w6 with
      | nil => exact absurd (List.cons.inj h).1 (by decide)
      | cons c w6 =>
        refine hwhom ?_
        rw [(List.cons.inj h).1]
        simp
    · obtain ⟨-, h⟩ := split_space h3 hnick h
      exact hfirst _ _ h
  · obtain ⟨-, h⟩ := split_space h2 hname h
    obtain ⟨hsame, h⟩ := split_space hname hnick h
    rw [← hsame] at h
    exact hfirst _ _ h

/-- **A line of Replay** has one sender and one text, where no colon is in the one that is sent. -/
theorem replayLine_inj {sWhom sMask nick sMessage sText : CString} (hwhom : ch ':' ∉ sWhom) (hmask : ch ' ' ∉ sMask)
    (hnick : ch ' ' ∉ nick) (h : replayLine sWhom nick sMessage = replayLine sMask nick sText) :
    sWhom = sMask ∧ sMessage = sText := by
  have hword := space_not_mem_sender hwhom hmask hnick h
  rw [replayLine_eq, replayLine_eq, cons_inj_right] at h
  obtain ⟨hsame, h⟩ := split_space hword hmask h
  rw [append_cancel_left_eq, cons_inj_right, append_cancel_left_eq, cons_inj_right, cons_inj_right] at h
  exact ⟨hsame, h⟩

theorem replay_ne (nick : Word) (m : Stored) :
    replayLine ((entryText m).token 1 false (ch ':') false) nick.1 ((entryText m).token 2 true (ch ':') false) ≠
      replayLine m.sMask.1 nick.1 m.sText.1 := by
  intro h
  have hcolon : ch ':' ∉ (entryText m).token 1 false (ch ':') false := fun hm => by simpa using mem_takeWhile_imp hm
  obtain ⟨-, htext⟩ := replayLine_inj hcolon m.sMask.2 nick.2 h
  obtain ⟨front, hfront⟩ := token_behind htext m.sText.2
  have hsplit : (uintText m.iTime ++ ch ' ' :: m.sMask.1 ++ [ch ' ']) ++ m.sText.1 =
      (front ++ [ch ':']) ++ m.sText.1 := by
    simpa only [entryText_eq, append_assoc, cons_append, nil_append] using hfront
  have hends := congrArg List.getLast? (append_cancel_right hsplit)
  rw [getLast?_concat, getLast?_concat] at hends
  exact absurd hends (by decide)

/-- **Replay is right** only when there is nothing to send. -/
theorem replays_iff (nick : Word) (h : Inv w) : Replays nick w ↔ w.vStored = [] := by
  unfold Replays replayCommand
  rw [h, map_map]
  refine ⟨fun heq => ?_, fun hnil => by simp only [hnil, map_nil]⟩
  by_contra hne
  obtain ⟨m, hm⟩ := exists_mem_of_ne_nil _ hne
  simp only [map_inj_left, Function.comp_apply] at heq
  exact replay_ne nick m (heq m hm)

/-! ## Show -/

theorem strtoul_time (t : Time) : strtoul (uintText t.1) = UInt64.ofNat t.1 :=
  strtoul_uintText (t.2.trans (by decide))

theorem entryText_words (m : Stored) : tok (entryText m) 0 = uintText m.iTime ∧
    (m.sMask.1 ≠ [] → tok (entryText m) 1 = m.sMask.1 ∧
      rest (entryText m) 2 = m.sText.1.dropWhile (· = ch ' ')) := by
  have hspace : ch ' ' ∉ uintText m.iTime := not_mem_uintText (by decide) _
  rw [entryText_eq]
  refine ⟨token_zero_append (uintText_ne _) hspace _, fun hne => ?_⟩
  have hhead : (m.sMask.1 ++ ch ' ' :: m.sText.1).head? ≠ some (ch ' ') := by
    rw [head?_append_of_ne_nil _ hne]
    exact fun hh => m.sMask.2 (mem_of_mem_head? hh)
  obtain ⟨-, hrest⟩ := words_append (uintText_ne m.iTime) hspace hhead
  obtain ⟨htake, hdrop⟩ := takeWhile_append_sep m.sMask.2 m.sText.1
  rw [tok_one, rest_two, hrest, word, htake, hdrop, dropWhile_cons_of_pos (by simp)]
  exact ⟨rfl, rfl⟩

theorem stays_iff {m : Stored} (hmask : m.sMask.1 ≠ []) :
    stays strftime (entryText m) = true ↔
      m.sText.1.dropWhile (· = ch ' ') ≠ [] ∧ strftime (UInt64.ofNat m.iTime) ≠ [] := by
  obtain ⟨hzero, hwords⟩ := entryText_words m
  obtain ⟨hone, htwo⟩ := hwords hmask
  simp [stays, hzero, hone, htwo, strtoul_time, hmask, uintText_ne]

theorem dropWhile_eq_self_iff (s : CString) : s.dropWhile (· = ch ' ') = s ↔ s.head? ≠ some (ch ' ') := by
  refine ⟨fun h => ?_, dropWhile_space⟩
  rw [← h]
  exact head_dropWhile_space s

/-- the rows of a sender as Show prints them -/
def shownRows (strftime : UInt64 → CString) (sWhom : CString) (vStored : List Stored) : VCString :=
  (vStored.zipIdx.filter fun x => x.1.sMask.1 = sWhom).map fun x =>
    rowText (strftime (UInt64.ofNat x.1.iTime)) (x.1.sText.1.dropWhile (· = ch ' ')) x.2

theorem filterMap_if {α β : Type} (p : α → Prop) [DecidablePred p] (f : α → β) (l : List α) :
    l.filterMap (fun x => if p x then some (f x) else none) = (l.filter fun x => p x).map f := by
  induction l with
  | nil => rfl
  | cons a l ih => by_cases ha : p a <;> simp [ha, ih]

theorem rows_left {vs : List Stored} (hmask : ∀ m ∈ vs, m.sMask.1 ≠ [])
    (hstays : ∀ m ∈ vs, stays strftime (entryText m) = true) (sWhom : CString) :
    Listing.rows (shown strftime) sWhom (vs.map entryText) = shownRows strftime sWhom vs := by
  rw [Listing.rows, zipIdx_map, filterMap_map, shownRows, ← filterMap_if]
  refine filterMap_congr fun x hx => ?_
  have hmem := fst_mem_of_mem_zipIdx hx
  obtain ⟨hzero, hwords⟩ := entryText_words x.1
  obtain ⟨hone, htwo⟩ := hwords (hmask _ hmem)
  simp only [Function.comp_apply, Listing.rowIn, Prod.map_fst, Prod.map_snd, id, shown, hstays _ hmem, if_true,
    Option.bind_some, hzero, hone, htwo, strtoul_time]

theorem length_filter_zipIdx {α : Type} (p : α → Bool) (l : List α) :
    (l.zipIdx.filter fun x => p x.1).length = (l.filter p).length := by
  calc (l.zipIdx.filter fun x => p x.1).length = ((l.zipIdx.filter (p ∘ Prod.fst)).map Prod.fst).length :=
        (length_map _).symm
    _ = ((l.zipIdx.map Prod.fst).filter p).length := by rw [filter_map]
    _ = (l.filter p).length := by rw [zipIdx_map_fst]

theorem mask_of_rows (strftime : UInt64 → CString) {vs : List Stored} {l : VCString}
    (h : Listing.rows (shown strftime) [] l = rowsOf strftime [] vs) : ∀ m ∈ vs, m.sMask.1 ≠ [] := by
  intro m hm hmask
  obtain ⟨i, hi⟩ := mem_iff_getElem?.1 hm
  have hrow : rowText (strftime (UInt64.ofNat m.iTime)) m.sText.1 i ∈ rowsOf strftime [] vs := by
    refine mem_map.2 ⟨(m, i), mem_filter.2 ⟨mem_zipIdx_iff_getElem?.2 hi, ?_⟩, rfl⟩
    exact decide_eq_true hmask
  rw [← h] at hrow
  obtain ⟨-, sEntry, row, -, hshown, -⟩ := Listing.mem_rows.1 hrow
  unfold shown at hshown
  split at hshown
  · rename_i hstays
    have hone : tok sEntry 1 = [] := (Prod.mk.inj (Option.some.inj hshown)).1
    simp [stays, hone] at hstays
  · cases hshown

theorem stays_of_rows (hrows : ∀ sWhom, shownRows strftime sWhom (left strftime w) = rowsOf strftime sWhom w.vStored) :
    ∀ m ∈ w.vStored, stays strftime (entryText m) = true := by
  intro m hm
  have hlen := congrArg List.length (hrows m.sMask.1)
  rw [shownRows, rowsOf, length_map, length_map,
    length_filter_zipIdx fun x : Stored => decide (x.sMask.1 = m.sMask.1),
    length_filter_zipIdx fun x : Stored => decide (x.sMask.1 = m.sMask.1), left, filter_comm,
    length_filter_eq_length_iff] at hlen
  exact hlen m (mem_filter.2 ⟨hm, decide_eq_true rfl⟩)

theorem shows_iff_rows (h : Inv w) : Shows strftime w ↔ ∀ sWhom,
    Listing.rows (shown strftime) sWhom ((left strftime w).map entryText) = rowsOf strftime sWhom w.vStored := by
  have hsame : ∀ a b : VCString, ((if a = [] then none else some a) = if b = [] then none else some b) ↔ a = b := by
    intro a b
    by_cases ha : a = [] <;> by_cases hb : b = [] <;> simp [ha, hb, eq_comm]
  unfold Shows
  simp only [showLoop_find, showCommand_left strftime h, hsame]

theorem shows_iff (h : Inv w) :
    Shows strftime w ↔ ∀ m ∈ w.vStored, Showable strftime m := by
  rw [shows_iff_rows strftime h]
  refine ⟨fun hall => ?_, fun hall sWhom => ?_⟩
  · have hmask : ∀ m ∈ w.vStored, m.sMask.1 ≠ [] := mask_of_rows strftime (hall [])
    have hleft : ∀ m ∈ left strftime w, m.sMask.1 ≠ [] ∧ stays strftime (entryText m) = true := fun m hm => by
      obtain ⟨hin, hstays⟩ := mem_filter.1 hm
      exact ⟨hmask m hin, hstays⟩
    have hrows : ∀ sWhom, shownRows strftime sWhom (left strftime w) = rowsOf strftime sWhom w.vStored := fun sWhom => by
      rw [← hall, rows_left strftime (fun m hm => (hleft m hm).1) fun m hm => (hleft m hm).2]
    have hstays := stays_of_rows strftime hrows
    intro m hm
    obtain ⟨i, hi⟩ := mem_iff_getElem?.1 hm
    have hrow := hrows m.sMask.1
    rw [left, filter_eq_self.2 hstays, shownRows, rowsOf, map_inj_left] at hrow
    have htext := hrow (m, i) (mem_filter.2 ⟨mem_zipIdx_iff_getElem?.2 hi, decide_eq_true rfl⟩)
    have hsame := append_cancel_left htext
    exact ⟨hmask m hm, (dropWhile_eq_self_iff _).1 hsame, ((stays_iff strftime (hmask m hm)).1 (hstays m hm)).2⟩
  · have hstays : ∀ m ∈ w.vStored, stays strftime (entryText m) = true := fun m hm => by
      obtain ⟨hmask, hhead, htime⟩ := hall m hm
      rw [stays_iff strftime hmask, (dropWhile_eq_self_iff _).2 hhead]
      exact ⟨m.sText.2, htime⟩
    rw [left, filter_eq_self.2 hstays, rows_left strftime (fun m hm => (hall m hm).1) hstays]
    refine map_congr_left fun x hx => ?_
    have hmem := fst_mem_of_mem_zipIdx (mem_of_mem_filter hx)
    rw [(dropWhile_eq_self_iff _).2 (hall _ hmem).2.1]

/-! ## Delete -/

theorem mem_showRows (sWhom sRow : CString) :
    sRow ∈ Listing.rows (shown strftime) sWhom (s.showCommand strftime).m_vMessages ↔
      ∃ (a : ℕ) (sEntry : CString), (s.showCommand strftime).m_vMessages[a]? = some sEntry ∧ tok sEntry 1 = sWhom ∧
        sRow = rowText (strftime (tok sEntry 0).strtoul) (rest sEntry 2) a := by
  have hshown : ∀ (a : ℕ) (sEntry : CString), (s.showCommand strftime).m_vMessages[a]? = some sEntry →
      shown strftime sEntry =
        some (tok sEntry 1, rowText (strftime (tok sEntry 0).strtoul) (rest sEntry 2)) := by
    intro a sEntry hget
    have hmem := mem_of_getElem? hget
    rw [showCommand_messages] at hmem
    exact if_pos (mem_filter.1 hmem).2
  rw [Listing.mem_rows]
  refine ⟨fun h => ?_, fun h => ?_⟩
  · obtain ⟨a, sEntry, row, hget, hrow, rfl⟩ := h
    obtain ⟨hwhom, hsRow⟩ := Prod.mk.inj (Option.some.inj ((hshown a sEntry hget).symm.trans hrow))
    exact ⟨a, sEntry, hget, hwhom, (congrFun hsRow a).symm⟩
  · obtain ⟨a, sEntry, hget, hwhom, hsRow⟩ := h
    exact ⟨a, sEntry, _, hget, hwhom ▸ hshown a sEntry hget, hsRow.symm⟩

theorem deleteCommand_number (s : CAway) {sCommand : CString} {a : ℕ} (ha : a < 2 ^ 32)
    (htok : tok sCommand 1 = uintText a) : (s.deleteCommand sCommand).m_vMessages = s.m_vMessages.eraseIdx a := by
  have hnumber : (tok sCommand 1).toUInt.toNat = a := by
    have hvalue := UserConfig.toUInt_uintText (UInt32.ofNat a)
    rw [UInt32.toNat_ofNat_of_lt' ha] at hvalue
    rw [htok, hvalue, UInt32.toNat_ofNat_of_lt' ha]
  have hall : tok sCommand 1 ≠ lit "all" := by
    intro h
    have hmem : ch 'a' ∈ uintText a := by
      rw [← htok, h]
      decide
    exact not_mem_uintText (by decide) a hmem
  rw [deleteCommand_messages, erased, if_neg hall, if_neg (htok ▸ uintText_ne a), hnumber]

theorem deletes (w : World) : Deletes strftime w := by
  refine ⟨fun sWhom sRow => ?_, fun sCommand a ha htok => deleteCommand_number _ ha htok⟩
  rw [← mem_showRows, showLoop_find]
  refine ⟨fun h => ?_, fun hrow => ⟨_, if_neg (ne_nil_of_mem hrow), hrow⟩⟩
  obtain ⟨vsRows, hfind, hrow⟩ := h
  split at hfind
  · cases hfind
  · rwa [Option.some.inj hfind]

/-! ## Every run -/

/-- **The messages that were stored**: Replay is wrong as soon as there is one, Show lists those that it can, and Delete
takes the one of its number, after every run. -/
theorem away_messages_iff (strftime : UInt64 → CString) (nick : Word) (bSave bChan : Bool) (ops : List Op) :
    let w := ops.foldl (exec strftime) (.start bSave bChan)
    (Replays nick w ∧ Shows strftime w ∧ Deletes strftime w ↔ w.vStored = []) ∧
      (Shows strftime w ↔ ∀ m ∈ w.vStored, Showable strftime m) ∧ Deletes strftime w := by
  intro w
  have hinv : Inv w := run_inv strftime bSave bChan ops
  refine ⟨⟨fun h => (replays_iff nick hinv).1 h.1, fun hnil => ?_⟩, shows_iff strftime hinv, deletes strftime w⟩
  refine ⟨(replays_iff nick hinv).2 hnil, (shows_iff strftime hinv).2 fun m hm => ?_, deletes strftime w⟩
  rw [hnil] at hm
  exact nomatch hm

/-- one message: neither its sender nor its text is in the line of Replay -/
theorem away_replay_one :
    let bob : Sender := ⟨⟨lit "bob", lit "u", lit "h"⟩, by decide⟩
    let w := [Op.away true, .privMsg (lit "me") ⟨1700000000, by decide⟩ bob ⟨lit "hi", by decide⟩].foldl
      (exec fun _ => lit "2023-11-14 22:13:20") (.start true false)
    w.s.replayCommand (lit "me") = [lit ": PRIVMSG me :"] ∧ ¬Replays ⟨lit "me", by decide⟩ w := by
  refine ⟨by decide +kernel, fun h => ?_⟩
  have hlength := congrArg (List.map List.length) h
  revert hlength
  decide +kernel

end ZNC.AwayStore
