/-
Buffer replay: what a client gets from a line that a message of the server left in a buffer.

The mask of the sender and a channel target are stored escaped, the target of a private message as `{target}` and the
text as `{text}`; `ToMessage` fills them in. A message is `Storable` when its sender is a full `nick!user@host`, neither
mask nor target holds a NUL, and both, and the number of parameters, stay below 2^32: a line of the server is at most 2048
bytes.

Results:
- `formatOf_spec`, `toMessage_formatOf`: the format message of a storable message, and its replay;
- `addQuery_spec`, `adds_query`, `adds_set`: what adding a line to one buffer does to all of them;
- `buffer_replay`: the line that a message leaves replays to the message, and it leaves one when it is to be stored.
-/
import ZNC.IRCNetwork

namespace ZNC

open CString List

/-! ## The templates of a format message -/

theorem namedFormat_target (msValues : MCString) :
    namedFormat (lit "{target}") msValues = (msValues.find (lit "target")).getD [] := by
  have h : ∀ v : CString, v ++ [] = v := append_nil
  exact h _

theorem namedFormat_text (k : ETextKind) (msValues : MCString) (sText : CString)
    (h : msValues.find (lit "text") = some sText) :
    namedFormat (k.textParam (lit "{text}")) msValues = k.textParam sText := by
  have hopen : namedFormat (lit "{text}") msValues = (msValues.find (lit "text")).getD [] ++ [] := rfl
  have haction : namedFormat (ETextKind.sAction ++ lit "{text}" ++ CMessage.soh) msValues =
      ETextKind.sAction ++ ((msValues.find (lit "text")).getD [] ++ CMessage.soh) := rfl
  rw [h, Option.getD_some, append_nil] at hopen
  rw [h, Option.getD_some, ← append_assoc] at haction
  cases k with
  | Text => exact hopen
  | Notice => exact hopen
  | Action => exact haction

namespace ETextKind

theorem getText_textParam (k : ETextKind) (m : CMessage) (sText : CString) (h : m.getParam 1 = k.textParam sText) :
    k.getText m = sText := by
  cases k with
  | Text => exact h
  | Notice => exact h
  | Action =>
    have hstart : (sAction ++ sText ++ CMessage.soh).startsWith sAction = true := by
      rw [startsWith, left, append_assoc, take_left]
      exact equals_refl _
    have hend : ((sText ++ CMessage.soh).right CMessage.soh.length).equals CMessage.soh = true := by
      rw [right, length_append, Nat.add_sub_cancel, drop_left]
      exact equals_refl _
    calc getText .Action m = ((sAction ++ sText ++ CMessage.soh).trimPrefix_n sAction).trimSuffix_n CMessage.soh := by
          rw [getText, h, textParam]
      _ = (sText ++ CMessage.soh).trimSuffix_n CMessage.soh := by
          rw [trimPrefix_n, if_pos hstart, append_assoc, drop_left]
      _ = sText := by rw [trimSuffix_n, if_pos hend, length_append, Nat.add_sub_cancel, take_left]

end ETextKind

/-! ## Senders -/

/-- a full `nick!user@host` -/
structure CNick.Full (n : CNick) : Prop where
  nick : n.sNick ≠ []
  noBang : ch '!' ∉ n.sNick
  noColon : n.sNick.head? ≠ some (ch ':')
  ident : n.sIdent ≠ []
  noAt : ch '@' ∉ n.sIdent
  host : n.sHost ≠ []

/-- the escaped text of a string, byte by byte -/
abbrev esc (s : CString) : CString := escaped .ENAMEDFMT s

theorem esc_append (s t : CString) : esc (s ++ t) = esc s ++ esc t := flatMap_append

theorem mem_esc {s : CString} {c : UInt8} (hc : c ≠ ch '\\') : c ∈ esc s ↔ c ∈ s := by
  have hbyte : ∀ b c : UInt8, c ≠ ch '\\' → (c ∈ escapeTo .ENAMEDFMT b ↔ c = b) := by
    intro b c hc
    simp only [escapeTo]
    split_ifs with h1 h2 h3
    · simp [h1, hc]
    · simp [h2, hc]
    · simp [h3, hc]
    · simp
  have hesc : esc s = s.flatMap (escapeTo .ENAMEDFMT) := rfl
  rw [hesc, mem_flatMap]
  constructor
  · intro h
    obtain ⟨b, hb, hcb⟩ := h
    rwa [(hbyte b c hc).1 hcb]
  · intro h
    exact ⟨c, h, (hbyte c c hc).2 rfl⟩

theorem esc_ne_nil {s : CString} (h : s ≠ []) : esc s ≠ [] := by
  cases s with
  | nil => exact absurd rfl h
  | cons c s =>
    have hbyte : escapeTo .ENAMEDFMT c ≠ [] := by simp only [escapeTo]; split_ifs <;> simp
    intro h0
    exact hbyte (append_eq_nil_iff.1 h0).1

theorem head_esc {s : CString} (h : s.head? ≠ some (ch ':')) : (esc s).head? ≠ some (ch ':') := by
  cases s with
  | nil => exact h
  | cons c s =>
    have hc : c ≠ ch ':' := by simpa using h
    have hesc : esc (c :: s) = escapeTo .ENAMEDFMT c ++ esc s := rfl
    rw [hesc]
    simp only [escapeTo]
    split_ifs
    · simp; decide
    · simp; decide
    · simp; decide
    · simpa using hc

namespace CNick.Full

variable {n : CNick}

theorem mask (h : n.Full) : n.getNickMask = n.sNick ++ ch '!' :: (n.sIdent ++ ch '@' :: n.sHost) := by
  rw [getNickMask, if_neg h.host, if_neg h.ident]
  rfl

theorem parse_mask (h : n.Full) : CNick.empty.parse n.getNickMask = n := by
  rw [h.mask, parse_full _ h.noBang h.noAt, chompColon_eq_self h.noColon]

theorem parse_esc (h : n.Full) : CNick.getNickMask (CNick.empty.parse (esc n.getNickMask)) = esc n.getNickMask := by
  have hbang : esc (ch '!' :: (n.sIdent ++ ch '@' :: n.sHost)) = ch '!' :: esc (n.sIdent ++ ch '@' :: n.sHost) := rfl
  have hat : esc (ch '@' :: n.sHost) = ch '@' :: esc n.sHost := rfl
  have hmask : esc n.getNickMask = esc n.sNick ++ ch '!' :: (esc n.sIdent ++ ch '@' :: esc n.sHost) := by
    rw [h.mask, esc_append, hbang, esc_append, hat]
  have hfull : (⟨esc n.sNick, esc n.sIdent, esc n.sHost⟩ : CNick).Full :=
    { nick := esc_ne_nil h.nick
      noBang := fun h0 => h.noBang ((mem_esc (by decide)).1 h0)
      noColon := head_esc h.noColon
      ident := esc_ne_nil h.ident
      noAt := fun h0 => h.noAt ((mem_esc (by decide)).1 h0)
      host := esc_ne_nil h.host }
  rw [hmask, ← hfull.mask, hfull.parse_mask]

end CNick.Full

/-! ## The format message -/

/-- a message from a full sender, without NUL in mask and target, no longer than lines of the server are -/
structure Storable (m : CMessage) : Prop where
  full : m.nick.Full
  maskNul : (0 : UInt8) ∉ m.nick.getNickMask
  maskLength : m.nick.getNickMask.length < 2 ^ 32
  targetNul : (0 : UInt8) ∉ m.getParam 0
  targetLength : (m.getParam 0).length < 2 ^ 32
  params : m.vsParams.length < 2 ^ 32

/-- `r` is the message `m` of kind `k`, with this target -/
structure SameMessage (k : ETextKind) (m : CMessage) (sTarget : CString) (r : CMessage) : Prop where
  command : r.sCommand = m.sCommand
  nick : r.nick = m.nick
  text : k.getText r = k.getText m
  target : r.getParam 0 = sTarget

namespace ETextKind

theorem namedFmt_eq {s : CString} (h : s.length < 2 ^ 32) : namedFmt s = some (esc s) := escape_n_ascii s .ENAMEDFMT h

theorem formatOf_spec (k : ETextKind) {m : CMessage} (hm : Storable m) (sTarget : CString) :
    ∃ format, formatOf k m sTarget = some format ∧ format.sCommand = m.sCommand ∧
      format.nick.getNickMask = esc m.nick.getNickMask ∧ format.vsParams.length = max m.vsParams.length 2 ∧
      format.vsParams.getD 0 [] = sTarget ∧ format.vsParams.getD 1 [] = k.textParam (lit "{text}") := by
  obtain ⟨m1, h1, hnick1, hcmd1, hlen1, hget1⟩ :=
    CMessage.setParam_spec { m with nick := CNick.empty.parse (esc m.nick.getNickMask) } 0 sTarget (by decide)
  obtain ⟨m2, h2, hnick2, hcmd2, hlen2, hget2⟩ := m1.setParam_spec 1 (k.textParam (lit "{text}")) (by decide)
  refine ⟨m2, ?_, hcmd2.trans hcmd1, ?_, ?_, ?_, ?_⟩
  · rw [formatOf, namedFmt_eq hm.maskLength, Option.bind_some, h1, Option.bind_some]
    exact h2
  · rw [hnick2, hnick1]
    exact hm.full.parse_esc
  · have hlen1 : m1.vsParams.length = max m.vsParams.length 1 := hlen1
    have hlen2 : m2.vsParams.length = max m1.vsParams.length 2 := hlen2
    omega
  · rw [hget2, if_neg (by decide), hget1, if_pos (by decide)]
  · rw [hget2, if_pos (by decide)]

theorem toMessage_formatOf (k : ETextKind) {m : CMessage} (hm : Storable m) (sTarget : CString) :
    ∃ format, formatOf k m sTarget = some format ∧
      ∀ (client : CClient) (mssParams : MCString), client.bServerTime = true →
        ∃ r, (CBufLine.mk format (k.getText m)).toMessage client mssParams = some r ∧
          SameMessage k m (namedFormat sTarget (mssParams.insert (lit "text") (k.getText m))) r := by
  obtain ⟨format, hformat, hcmd, hmask, hlen, htarget, htext⟩ := formatOf_spec k hm sTarget
  refine ⟨format, hformat, fun client mssParams htime => ?_⟩
  have hshort : format.vsParams.length < 2 ^ 32 := by
    have := hm.params
    rw [hlen]
    omega
  obtain ⟨r, hr, hrcmd, hrnick, hrget⟩ := (CBufLine.mk format (k.getText m)).toMessage_spec client mssParams hshort
  have hthis : (CBufLine.mk format (k.getText m)).thisParams client mssParams =
      mssParams.insert (lit "text") (k.getText m) := by
    rw [CBufLine.thisParams, if_pos htime]
  simp only [hthis] at hrget
  refine ⟨r, hr, { command := hrcmd.trans hcmd, nick := ?_, text := ?_, target := ?_ }⟩
  · rw [hrnick, hmask, namedFormat_escaped _ hm.maskNul, hm.full.parse_mask]
  · apply getText_textParam
    have hget := hrget 1 (by omega)
    rw [htext, namedFormat_text k _ (k.getText m) (by rw [OrdMap.find_insert, if_pos rfl])] at hget
    exact hget
  · have hget := hrget 0 (by omega)
    rw [htarget] at hget
    exact hget

end ETextKind

/-- the line replays to `m`, for every client with server-time: with its own nick as the target of a private message, if
the parameters say so, and the target of `m` otherwise -/
def Replays (k : ETextKind) (bPrivate : Bool) (m : CMessage) (l : CBufLine) : Prop :=
  ∀ (client : CClient) (mssParams : MCString), client.bServerTime = true →
    (bPrivate = true → mssParams.find (lit "target") = some client.sNick) →
    ∃ r, l.toMessage client mssParams = some r ∧ SameMessage k m (if bPrivate then client.sNick else m.getParam 0) r

theorem replays_private (k : ETextKind) {m : CMessage} (hm : Storable m) :
    ∃ format, ETextKind.formatOf k m (lit "{target}") = some format ∧ Replays k true m ⟨format, k.getText m⟩ := by
  obtain ⟨format, hformat, hreplay⟩ := k.toMessage_formatOf hm (lit "{target}")
  refine ⟨format, hformat, fun client mssParams htime hparams => ?_⟩
  obtain ⟨r, hr, hsame⟩ := hreplay client mssParams htime
  rw [namedFormat_target, OrdMap.find_insert, if_neg (by decide), hparams rfl] at hsame
  exact ⟨r, hr, hsame⟩

theorem replays_channel (k : ETextKind) {m : CMessage} (hm : Storable m) :
    ∃ format, ETextKind.formatOf k m (esc (m.getParam 0)) = some format ∧ Replays k false m ⟨format, k.getText m⟩ := by
  obtain ⟨format, hformat, hreplay⟩ := k.toMessage_formatOf hm (esc (m.getParam 0))
  refine ⟨format, hformat, fun client mssParams htime _ => ?_⟩
  obtain ⟨r, hr, hsame⟩ := hreplay client mssParams htime
  rw [namedFormat_escaped _ hm.targetNul] at hsame
  exact ⟨r, hr, hsame⟩

/-! ## Where the line goes -/

theorem mem_flatMap_modify {α β : Type} {L : List α} {i : ℕ} {a : α} (hi : L[i]? = some a) (f : α → α) (g : α → List β)
    (b : β) : (b ∈ (L.modify i f).flatMap g → b ∈ L.flatMap g ∨ b ∈ g (f a)) ∧
      (b ∈ g (f a) → b ∈ (L.modify i f).flatMap g) := by
  have hlt : i < L.length := (List.getElem?_eq_some_iff.1 hi).1
  constructor
  · intro h
    obtain ⟨x, hx, hb⟩ := mem_flatMap.1 h
    obtain ⟨j, hj⟩ := mem_iff_getElem?.1 hx
    rw [getElem?_modify] at hj
    by_cases hij : i = j
    · rw [← hij, hi] at hj
      simp at hj
      exact .inr (hj ▸ hb)
    · have hj : L[j]? = some x := by simpa [hij] using hj
      exact .inl (mem_flatMap.2 ⟨x, mem_iff_getElem?.2 ⟨j, hj⟩, hb⟩)
  · intro h
    refine mem_flatMap.2 ⟨f a, mem_iff_getElem?.2 ⟨i, ?_⟩, h⟩
    rw [getElem?_modify, hi]
    simp

namespace CIRCNetwork

/-- every buffer, also that of a new query, holds a line at least -/
structure HasRoom (net : CIRCNetwork) : Prop where
  chans : ∀ chan ∈ net.vChans, chan.buffer.uLineCount ≠ 0
  queries : ∀ query ∈ net.vQueries, query.buffer.uLineCount ≠ 0
  newQuery : net.uQueryBufferSize ≠ 0
  notices : net.noticeBuffer.uLineCount ≠ 0

variable (net : CIRCNetwork)

/-- the query of a nick, an old one or a new one without lines -/
theorem addQuery_spec {sName : CString} (hname : sName ≠ []) :
    ∃ net' i query, net.addQuery sName = (net', some i) ∧ net'.vQueries[i]? = some query ∧
      (∀ l ∈ net'.lines, l ∈ net.lines) ∧ (net.HasRoom → query.buffer.uLineCount ≠ 0) := by
  unfold addQuery
  rw [if_neg hname]
  cases hfind : net.findQuery sName with
  | some i =>
    have hlt : i < net.vQueries.length := by
      rw [findQuery, findIdx?_eq_some_iff_getElem] at hfind
      exact hfind.1
    refine ⟨net, i, net.vQueries[i], rfl, getElem?_eq_getElem hlt, fun _ h => h, fun hroom => ?_⟩
    exact hroom.queries _ (getElem_mem hlt)
  | none =>
    simp only
    set query : CQuery := ⟨sName, ⟨[], net.uQueryBufferSize⟩⟩ with hquery
    -- the new query is the last one and survives the eviction
    obtain ⟨old, hsub, hold⟩ : ∃ old, (∀ q ∈ old, q ∈ net.vQueries) ∧
        (if 0 < net.uMaxQueryBuffers then
          (net.vQueries ++ [query]).drop ((net.vQueries ++ [query]).length - net.uMaxQueryBuffers)
        else net.vQueries ++ [query]) = old ++ [query] := by
      split_ifs with hmax
      · refine ⟨net.vQueries.drop (net.vQueries.length + 1 - net.uMaxQueryBuffers),
          fun q hq => mem_of_mem_drop hq, ?_⟩
        rw [length_append, length_singleton, drop_append_of_le_length (by omega)]
      · exact ⟨net.vQueries, fun q hq => hq, rfl⟩
    rw [hold]
    refine ⟨_, _, query, rfl, by simp, fun l hl => ?_, fun hroom => hroom.newQuery⟩
    simp only [lines, mem_append, mem_flatMap, mem_singleton] at hl ⊢
    rcases hl with (hl | ⟨q, hq | hq, hl⟩) | hl
    · exact .inl (.inl hl)
    · exact .inl (.inr ⟨q, hsub q hq, hl⟩)
    · rw [hq] at hl
      cases hl
    · exact .inr hl

/-- the network gets no line but `l`, which it gets if there is room for it and `stored` says so -/
def Adds (net net' : CIRCNetwork) (stored : Prop) (l : CBufLine) : Prop :=
  (∀ l' ∈ net'.lines, l' ∈ net.lines ∨ l' = l) ∧ (net.HasRoom → stored → l ∈ net'.lines)

/-- whether a private message is stored: without a client that is not away, or because queries are kept -/
def StoresPrivate (net : CIRCNetwork) (k : ETextKind) : Prop :=
  net.bUserOnline = false ∨ (k ≠ .Notice ∧ net.bAutoClearQueryBuffer = false)

/-- whether a message to this channel is stored -/
def StoresChannel (net : CIRCNetwork) (chan : CChan) : Prop :=
  net.bUserOnline = false ∨ chan.bAutoClearChanBuffer = false ∨ chan.bDetached = true

theorem adds_query {net net' : CIRCNetwork} {i : ℕ} {query : CQuery} (hi : net'.vQueries[i]? = some query)
    (hlines : ∀ l ∈ net'.lines, l ∈ net.lines) (hroom : net.HasRoom → query.buffer.uLineCount ≠ 0) (stored : Prop)
    (format : CMessage) (sText : CString) :
    net.Adds { net' with vQueries := net'.vQueries.modify i fun query =>
      { query with buffer := query.buffer.addLine format sText } } stored ⟨format, sText⟩ := by
  have hmod := mem_flatMap_modify hi (fun query => { query with buffer := query.buffer.addLine format sText })
    (·.buffer.lines)
  constructor
  · intro l hl
    simp only [lines, mem_append] at hl
    rcases hl with (hl | hl) | hl
    · exact .inl (hlines l (by simp only [lines, mem_append]; exact .inl (.inl hl)))
    · rcases (hmod l).1 hl with hl | hl
      · exact .inl (hlines l (by simp only [lines, mem_append]; exact .inl (.inr hl)))
      · rcases CBuffer.mem_of_mem_addLine hl with hl | hl
        · have hquery : query ∈ net'.vQueries := mem_of_getElem? hi
          refine .inl (hlines l ?_)
          simp only [lines, mem_append, mem_flatMap]
          exact .inl (.inr ⟨query, hquery, hl⟩)
        · exact .inr hl
    · exact .inl (hlines l (by simp only [lines, mem_append]; exact .inr hl))
  · intro hnet _
    simp only [lines, mem_append]
    exact .inl (.inr ((hmod _).2 (CBuffer.mem_addLine (hroom hnet) _ _)))

theorem bufferQuery_adds (k : ETextKind) {m : CMessage} (hm : Storable m) :
    ∃ net' l, net.bufferQuery k m = some net' ∧ Replays k true m l ∧ net.Adds net' (net.StoresPrivate k) l := by
  obtain ⟨format, hformat, hreplays⟩ := replays_private k hm
  unfold bufferQuery
  split_ifs with hread
  · refine ⟨net, _, rfl, hreplays, fun l hl => .inl hl, fun _ hstored => ?_⟩
    rw [Bool.and_eq_true] at hread
    rcases hstored with h | h
    · exact absurd (h.symm.trans hread.1) (by decide)
    · exact absurd (h.2.symm.trans hread.2) (by decide)
  · obtain ⟨net1, i, query, hadd, hi, hlines, hroom⟩ := net.addQuery_spec hm.full.nick
    rw [hadd, hformat]
    exact ⟨_, _, rfl, hreplays, adds_query hi hlines hroom _ _ _⟩

theorem bufferPrivate_adds (k : ETextKind) {m : CMessage} (hm : Storable m) :
    ∃ net' l, net.bufferPrivate k m = some net' ∧ Replays k true m l ∧ net.Adds net' (net.StoresPrivate k) l := by
  cases k with
  | Text => exact net.bufferQuery_adds _ hm
  | Action => exact net.bufferQuery_adds _ hm
  | Notice =>
    obtain ⟨format, hformat, hreplays⟩ := replays_private .Notice hm
    simp only [bufferPrivate]
    split_ifs with hread
    · refine ⟨net, _, rfl, hreplays, fun l hl => .inl hl, fun _ hstored => ?_⟩
      rcases hstored with h | h
      · exact absurd (h.symm.trans hread) (by decide)
      · exact absurd rfl h.1
    · rw [hformat]
      refine ⟨_, _, rfl, hreplays, fun l hl => ?_, fun hroom _ => ?_⟩
      · simp only [lines, mem_append] at hl ⊢
        rcases hl with hl | hl
        · exact .inl (.inl hl)
        · exact (CBuffer.mem_of_mem_addLine hl).imp_left .inr
      · simp only [lines, mem_append]
        exact .inr (CBuffer.mem_addLine hroom.notices _ _)

theorem adds_set {net : CIRCNetwork} {i : ℕ} {chan chan' : CChan} (hi : net.vChans[i]? = some chan) {stored : Prop}
    {l : CBufLine} (hlines : ∀ l' ∈ chan'.buffer.lines, l' ∈ chan.buffer.lines ∨ l' = l)
    (hstored : chan.buffer.uLineCount ≠ 0 → stored → l ∈ chan'.buffer.lines) :
    net.Adds { net with vChans := net.vChans.set i chan' } stored l := by
  have hlt : i < net.vChans.length := (List.getElem?_eq_some_iff.1 hi).1
  have hchan : chan ∈ net.vChans := mem_of_getElem? hi
  constructor
  · intro l' hl
    simp only [lines, mem_append, mem_flatMap] at hl ⊢
    rcases hl with (⟨c, hc, hl⟩ | hl) | hl
    · rcases mem_or_eq_of_mem_set hc with hc | hc
      · exact .inl (.inl (.inl ⟨c, hc, hl⟩))
      · rw [hc] at hl
        rcases hlines l' hl with hl | hl
        · exact .inl (.inl (.inl ⟨chan, hchan, hl⟩))
        · exact .inr hl
    · exact .inl (.inl (.inr hl))
    · exact .inl (.inr hl)
  · intro hroom hs
    simp only [lines, mem_append, mem_flatMap]
    exact .inl (.inl ⟨chan', mem_set hlt chan', hstored (hroom.chans chan hchan) hs⟩)

theorem bufferChannel_adds (k : ETextKind) {i : ℕ} {chan fixed : CChan} (hi : net.vChans[i]? = some chan)
    (hfixed : fixed.buffer = chan.buffer ∧
      fixed.bAutoClearChanBuffer = chan.bAutoClearChanBuffer ∧ fixed.bDetached = chan.bDetached) {m : CMessage}
    (hm : Storable m) :
    ∃ net' l, net.bufferChannel k i fixed m = some net' ∧ Replays k false m l ∧
      net.Adds net' (net.StoresChannel chan) l := by
  obtain ⟨format, hformat, hreplays⟩ := replays_channel k hm
  obtain ⟨hbuffer, hauto, hdetached⟩ := hfixed
  unfold bufferChannel
  split_ifs with hkept
  · rw [ETextKind.namedFmt_eq hm.targetLength, Option.bind_some, hformat]
    refine ⟨_, _, rfl, hreplays, adds_set hi (fun l hl => ?_) fun hroom _ => ?_⟩
    · rw [← hbuffer]
      exact CBuffer.mem_of_mem_addLine hl
    · exact CBuffer.mem_addLine (by rwa [hbuffer]) _ _
  · refine ⟨_, _, rfl, hreplays, adds_set hi (fun l hl => .inl (hbuffer ▸ hl)) fun _ hstored => ?_⟩
    refine absurd ?_ hkept
    rw [hauto, hdetached]
    rcases hstored with h | h | h
    · simp [h]
    · simp [h]
    · simp [h]

/-! ## Handlers -/

/-- whether `m` is to be stored -/
def Stores (net : CIRCNetwork) (k : ETextKind) (m : CMessage) : Prop :=
  if net.isPrivate m then net.StoresPrivate k
  else ∃ i chan, net.chanOf m = some (i, chan) ∧ net.StoresChannel chan

/-- **Buffer replay.** A message that the module hooks let through, as `m'`, is handled: there is one line that replays to
`m'`, the handler adds no other line to any buffer, and it adds this one if the message is to be stored. -/
theorem buffer_replay (hooks : CMessage → Option CMessage) (k : ETextKind) (net : CIRCNetwork) (m m' : CMessage)
    (hm : Storable m) (hhooks : hooks m = some m') (hm' : Storable m') :
    ∃ net' b l, net.onMessage hooks k m = some (net', b) ∧ Replays k (net.isPrivate m) m' l ∧
      net.Adds net' (net.Stores k m) l := by
  unfold onMessage Stores
  cases hp : net.isPrivate m with
  | true =>
    obtain ⟨net', l, hnet, hreplays, hadds⟩ := net.bufferPrivate_adds k hm'
    rw [if_pos rfl, if_pos rfl, hhooks]
    simp only
    rw [hnet]
    exact ⟨net', false, l, rfl, hreplays, hadds⟩
  | false =>
    rw [if_neg (by decide), if_neg (by decide)]
    cases hfound : net.chanOf m with
    | none =>
      obtain ⟨format, _, hreplays⟩ := replays_channel k hm'
      refine ⟨net, false, _, rfl, hreplays, fun l hl => .inl hl, fun _ hstored => ?_⟩
      obtain ⟨i, chan, hnone, -⟩ := hstored
      cases hnone
    | some found =>
      obtain ⟨i, chan⟩ := found
      obtain ⟨hnick, hfixed⟩ := fixupChanNick_eq m.nick chan hm.full.ident hm.full.host
      obtain ⟨net', l, hnet, hreplays, hadds⟩ := net.bufferChannel_adds k (chanOf_eq_some hfound) hfixed hm'
      simp only [hnick]
      rw [hhooks]
      simp only
      rw [hnet]
      refine ⟨net', chan.bDetached, l, rfl, hreplays, hadds.1, fun hroom hstored => hadds.2 hroom ?_⟩
      obtain ⟨i', chan', hfound', hstores⟩ := hstored
      simp only [Option.some.injEq, Prod.mk.injEq] at hfound'
      rwa [hfound'.2]

/-- a network in `#{c}`, with nobody there -/
def sampleNet : CIRCNetwork where
  sNick := lit "me"
  sStatusMsg := lit "@+"
  bUserOnline := false
  bAutoClearQueryBuffer := true
  uMaxQueryBuffers := 50
  uQueryBufferSize := 50
  vChans := [⟨lit "#{c}", .empty, false, true, ⟨[], 50⟩⟩]
  vQueries := []
  noticeBuffer := ⟨[], 250⟩

/-- `:{n}!i@h PRIVMSG @#{c} :{text} \ }` -/
def sampleMessage : CMessage where
  nick := ⟨lit "{n}", lit "i", lit "h"⟩
  sCommand := lit "PRIVMSG"
  vsParams := [lit "@#{c}", lit "{text} \\ \x7d"]
  mssTags := .empty
  time := ⟨0, 0⟩
  eType := .Text
  bColon := true

theorem buffer_replay_braces : ∃ net' b l, sampleNet.onMessage some .Text sampleMessage = some (net', b) ∧
    Replays .Text (sampleNet.isPrivate sampleMessage) sampleMessage l ∧
      sampleNet.Adds net' (sampleNet.Stores .Text sampleMessage) l := by
  have hstorable : Storable sampleMessage :=
    { full :=
        { nick := by decide
          noBang := by decide
          noColon := by decide
          ident := by decide
          noAt := by decide
          host := by decide }
      maskNul := by decide
      maskLength := by decide
      targetNul := by decide
      targetLength := by decide
      params := by decide }
  exact buffer_replay some .Text sampleNet sampleMessage sampleMessage hstorable rfl hstorable

end CIRCNetwork

end ZNC
