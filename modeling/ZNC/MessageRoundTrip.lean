/-
Round trips between messages and lines.

In one direction a message is printed and the text parsed into a fresh object; in the other a line is parsed and printed
again. The lines are those of the grammar quoted in `CMessage::Parse`, spelled canonically: one space between parts, a
colon on the last parameter exactly when it needs one, tags in key order with escaped values. NUL, CR and LF, which the
grammar excludes from parameters, make no difference and are not excluded here.

Results:
- `message_round_trip`: a printable message is read back with the same tags, nick, command and parameters;
- `message_round_trip_fails`: a nick with a leading colon loses it, a tag value of 2^32 bytes is never printed, and of 2^32
  parameters some are lost;
- `line_fidelity_iff`: a derivable line is printed as it was read exactly if its prefix is not `nick!user`, its escaped tag
  values are shorter than 2^32 bytes and its parameters fewer than 2^32;
- `line_fidelity_fails`: the prefix `n!u` comes back as `n@u`.
-/
import ZNC.MessageLine

namespace ZNC.CMessage

open Words CString List Option

/-! ## From a message to its line and back -/

/-- nicks that a prefix can carry -/
structure PrintableNick (n : CNick) : Prop where
  complete : n.Complete
  noSpace : ch ' ' ∉ n.sNick ∧ ch ' ' ∉ n.sIdent ∧ ch ' ' ∉ n.sHost
  noColon : n.sNick.head? ≠ some (ch ':')

/-- messages that a line can carry -/
structure Printable (m : CMessage) : Prop where
  keys : GoodKeys m.mssTags
  values : SmallValues m.mssTags
  nick : m.nick = .empty ∨ PrintableNick m.nick
  command : GoodCommand m.sCommand
  params : Canonical m.vsParams
  count : m.vsParams.length < 2 ^ 32

theorem not_mem_getHostMask {n : CNick} {c : UInt8} (h : c ∉ n.sNick ∧ c ∉ n.sIdent ∧ c ∉ n.sHost) (hb : c ≠ ch '!')
    (ha : c ≠ ch '@') : c ∉ n.getHostMask := by
  obtain ⟨h1, h2, h3⟩ := h
  unfold CNick.getHostMask
  simp only [mem_append, not_or]
  refine ⟨⟨h1, ?_⟩, ?_⟩
  · split_ifs
    · exact not_mem_nil
    · simp [h2, hb]
  · split_ifs
    · exact not_mem_nil
    · simp [h3, ha]

theorem ofNothing_eq (utils : CUtils) : ∃ m, ofNothing utils = some m ∧ m.nick = .empty := ⟨_, rfl, rfl⟩

/-- **Printing and parsing.** A printable message, parsed from its line into a fresh object, has the same tags, nick, user,
host, command and parameters. -/
theorem message_round_trip (utils : CUtils) (m : CMessage) (h : Printable m) :
    ∃ s r, m.toString IncludeAll = some s ∧ ((ofNothing utils).bind fun m0 => m0.parse s) = some r ∧
      r.mssTags = m.mssTags ∧ r.nick = m.nick ∧ r.sCommand = m.sCommand ∧ r.vsParams = m.vsParams := by
  obtain ⟨m0, hm0, hnick0⟩ := ofNothing_eq utils
  have hparams : (if m.vsParams = [] then some none else (m.getParamsColon 0 0xFFFFFFFF).map some) =
      some (paramsPart m.bColon m.vsParams) := by
    unfold paramsPart
    split_ifs with hp
    · rfl
    · rw [getParamsColon_eq m h.count]
      rfl
  have hprint : m.toString IncludeAll =
      some (lineOf (tagsOf m.mssTags) (prefixPart m.nick) m.sCommand (paramsPart m.bColon m.vsParams)) := by
    rw [toString_eq m h.keys h.values h.command.ne, hparams, map_some]
  have hword : OneWord (prefixPart m.nick) := by
    intro s hs
    unfold prefixPart at hs
    split_ifs at hs with hmask
    · exact absurd hs (by simp)
    · obtain rfl := some_inj.1 hs
      rcases h.nick with h0 | hn
      · exact absurd (by rw [h0]; rfl) hmask
      · exact not_mem_getHostMask hn.noSpace (by decide) (by decide)
  have hnick : parsedNick m0.nick (prefixPart m.nick) = m.nick := by
    rw [hnick0]
    rcases h.nick with h0 | hn
    · rw [h0]
      rfl
    · rw [prefixPart, if_neg (CNick.getHostMask_ne_nil hn.complete.nick)]
      exact CNick.parse_getHostMask m.nick hn.complete hn.noColon
  have hparse := parse_lineOf m0 m.mssTags (prefixPart m.nick) m.sCommand m.bColon m.vsParams h.keys hword h.command
    h.params
  rw [parseTags_tagsOf m.mssTags h.keys h.values, map_some] at hparse
  rw [hprint, hm0]
  exact ⟨_, _, rfl, hparse, rfl, hnick, rfl, rfl⟩

theorem wordsLength_parseParams (l : CString) : wordsLength (parseParams l).1 ≤ l.length + 1 := by
  fun_induction parseParams l with
  | case1 => exact Nat.zero_le _
  | case2 l => rw [wordsLength_cons]; simp [wordsLength]
  | case3 c l hc r ih =>
    rw [wordsLength_cons]
    have hr : wordsLength r.1 ≤ (nextWord (c :: l)).2.length + 1 := ih
    have hle : (nextWord (c :: l)).1.length + (nextWord (c :: l)).2.length ≤ (c :: l).length := length_word_le _ _
    by_cases hrest : (nextWord (c :: l)).2 = []
    · have hnil : wordsLength r.1 = 0 := by
        have hr : r = ([], false) := by
          simp only [r]
          rw [hrest, parseParams]
        rw [hr]
        rfl
      omega
    · have hadd : (nextWord (c :: l)).1.length + (nextWord (c :: l)).2.length + 1 ≤ (c :: l).length :=
        length_word_add_one_le hrest
      omega

/-- a PING with a nick, tags and parameters -/
def samplePing (nick : CNick) (mssTags : MCString) (vsParams : VCString) : CMessage :=
  { blank stoppedClock with nick := nick, sCommand := lit "PING", mssTags := mssTags, vsParams := vsParams }

/-- tags, nick, user, host and an empty last parameter -/
theorem message_round_trip_ping :
    ∃ s r, (samplePing ⟨lit "n", lit "u", lit "h"⟩ (OrdMap.empty.insert (lit "k") (lit "a b;")) [lit "x", []]).toString
        IncludeAll = some s ∧
      ((ofNothing stoppedClock).bind fun m0 => m0.parse s) = some r ∧
      r.mssTags = OrdMap.empty.insert (lit "k") (lit "a b;") ∧ r.nick = ⟨lit "n", lit "u", lit "h"⟩ ∧
      r.sCommand = lit "PING" ∧ r.vsParams = [lit "x", []] :=
  message_round_trip stoppedClock
    (samplePing ⟨lit "n", lit "u", lit "h"⟩ (OrdMap.empty.insert (lit "k") (lit "a b;")) [lit "x", []])
    { keys := fun it hit => by
        obtain rfl : it = (lit "k", lit "a b;") := mem_singleton.1 hit
        exact ⟨by decide, by decide, by decide, by decide⟩
      values := fun it hit => by
        obtain rfl : it = (lit "k", lit "a b;") := mem_singleton.1 hit
        decide
      nick := .inr ⟨⟨by decide, by decide, .inr (by decide)⟩, by decide, by decide⟩
      command := ⟨by decide, by decide, by decide, by decide⟩
      params := fun p hp => by
        obtain rfl : p = lit "x" := mem_singleton.1 hp
        rfl
      count := by decide }

theorem showParams_eq_self {vsParams : VCString} (h : ∀ p ∈ vsParams, needsColon p = false) :
    showParams false vsParams = vsParams := by
  induction vsParams with
  | nil => rfl
  | cons p ps ih =>
    cases ps with
    | nil =>
      rw [showParams, h p mem_cons_self]
      rfl
    | cons q ps => rw [showParams, ih fun x hx => h x (mem_cons_of_mem _ hx)]

theorem manyParams_lost : ∃ s,
    (samplePing .empty .empty (List.replicate (2 ^ 32) (lit "a"))).toString IncludeAll = some s ∧
    ∀ r, ((ofNothing stoppedClock).bind fun m0 => m0.parse s) = some r →
      r.vsParams ≠ List.replicate (2 ^ 32) (lit "a") := by
  set ps : VCString := List.replicate (2 ^ 32) (lit "a") with hps
  have hlen : ps.length = 2 ^ 32 := length_replicate
  have hne : ps ≠ [] := fun h0 => absurd (hlen.symm.trans (congrArg List.length h0)) (by decide)
  have hwords : wordsLength ps = 2 ^ 33 := by
    have hone : (lit "a").length + 1 = 2 := rfl
    rw [wordsLength, hps, map_replicate, sum_replicate, hone, smul_eq_mul]
    norm_num
  have hshow : showParams false ps = ps := showParams_eq_self fun p hp => by
    rw [eq_of_mem_replicate hp]
    rfl
  have hjoin : ((lit " ").join ps).length + 1 = 2 ^ 33 := by
    rw [← hwords]
    cases hc : ps with
    | nil => exact absurd hc hne
    | cons p l => exact length_join p l
  -- the printed parameters `t` are too short
  obtain ⟨t, ht, hshort⟩ := length_getParamsColon_lt (samplePing .empty .empty ps) hlen.ge
  have hv : (samplePing .empty .empty ps).vsParams = ps := rfl
  have hb : (samplePing .empty .empty ps).bColon = false := rfl
  rw [hb, hv, hshow] at hshort
  have hprint := toString_eq (samplePing .empty .empty ps) (fun it hit => absurd hit not_mem_nil)
    (fun it hit => absurd hit not_mem_nil) (cons_ne_nil _ _)
  rw [hv, if_neg hne, ht] at hprint
  refine ⟨_, hprint, fun r hr => ?_⟩
  -- and so is what is read from them
  obtain ⟨m0, hm0, -⟩ := ofNothing_eq stoppedClock
  rw [hm0, bind_some, parse_eq, map_eq_some_iff] at hr
  obtain ⟨mssTags, -, rfl⟩ := hr
  have hcmd : (commandPart (lineOf (tagsOf (samplePing .empty .empty ps).mssTags)
      (prefixPart (samplePing .empty .empty ps).nick) (samplePing .empty .empty ps).sCommand (some t))).2 =
      t.dropWhile (· = ch ' ') := rfl
  have hdrop : (t.dropWhile (· = ch ' ')).length ≤ t.length := (dropWhile_suffix _).length_le
  have hparsed := wordsLength_parseParams (t.dropWhile (· = ch ' '))
  intro h0
  simp only [hcmd] at h0
  rw [h0, hwords] at hparsed
  omega

/-- a nick with a colon in front loses it, a tag value of 2^32 bytes is never printed, and of 2^32 parameters some are
lost; nothing else about these messages is unprintable -/
theorem message_round_trip_fails :
    ((samplePing ⟨lit ":x", [], []⟩ .empty []).toString IncludeAll = some (lit "::x PING") ∧
      ((ofNothing stoppedClock).bind fun m0 => m0.parse (lit "::x PING")).map (·.nick) = some ⟨lit "x", [], []⟩) ∧
    (samplePing .empty (OrdMap.empty.insert (lit "k") (List.replicate (2 ^ 32) (ch 'a'))) []).toString IncludeAll =
      none ∧
    ∃ s, (samplePing .empty .empty (List.replicate (2 ^ 32) (lit "a"))).toString IncludeAll = some s ∧
      ∀ r, ((ofNothing stoppedClock).bind fun m0 => m0.parse s) = some r →
        r.vsParams ≠ List.replicate (2 ^ 32) (lit "a") := by
  refine ⟨⟨by decide, by decide⟩, ?_, manyParams_lost⟩
  have hbig : 2 ^ 32 ≤ (List.replicate (2 ^ 32) (ch 'a')).length := by rw [length_replicate]
  exact @toString_none (samplePing .empty (OrdMap.empty.insert (lit "k") (List.replicate (2 ^ 32) (ch 'a'))) [])
    (lit "k", List.replicate (2 ^ 32) (ch 'a')) mem_cons_self hbig

/-! ## From a line to its message and back -/

/-- `<prefix> ::= <servername> | <nick> [ '!' <user> ] [ '@' <host> ]` -/
inductive Prefix where
  | servername (name : CString)
  | nick (sNick : CString) (user host : Option CString)
deriving DecidableEq

def Prefix.text : Prefix → CString
  | .servername name => name
  | .nick sNick user host =>
    sNick ++ (user.elim [] fun u => ch '!' :: u) ++ (host.elim [] fun h => ch '@' :: h)

/-- a name of a server or of a nick -/
structure GoodName (s : CString) : Prop where
  ne : s ≠ []
  noSpace : ch ' ' ∉ s
  noBang : ch '!' ∉ s
  noAt : ch '@' ∉ s
  noColon : s.head? ≠ some (ch ':')

structure GoodUser (s : CString) : Prop where
  ne : s ≠ []
  noSpace : ch ' ' ∉ s
  noAt : ch '@' ∉ s

structure GoodHost (s : CString) : Prop where
  ne : s ≠ []
  noSpace : ch ' ' ∉ s
  noBang : ch '!' ∉ s
  noAt : ch '@' ∉ s

def Prefix.Derivable : Prefix → Prop
  | .servername name => GoodName name
  | .nick sNick user host => GoodName sNick ∧ (∀ u ∈ user, GoodUser u) ∧ ∀ h ∈ host, GoodHost h

/-- the shape `nick!user` -/
def Prefix.userOnly : Prefix → Bool
  | .servername _ => false
  | .nick _ user host => user.isSome && host.isNone

/-- a derivation of a line; the map keeps its tags in key order -/
structure Line where
  mssTags : MCString
  oPrefix : Option Prefix
  sCommand : CString
  vsParams : VCString

/-- `<command> ::= <letter> { <letter> } | <number> <number> <number>` -/
def CommandWord (s : CString) : Prop := (s ≠ [] ∧ s.all isalpha = true) ∨ isNumeric s = true

structure Line.Derivable (l : Line) : Prop where
  keys : GoodKeys l.mssTags
  sender : ∀ p ∈ l.oPrefix, p.Derivable
  command : CommandWord l.sCommand
  params : Canonical l.vsParams

/-- the canonical spelling -/
def Line.text (l : Line) : CString :=
  lineOf (tagsOf l.mssTags) (l.oPrefix.map Prefix.text) l.sCommand (paramsPart false l.vsParams)

theorem goodCommand_of_commandWord {s : CString} (h : CommandWord s) : GoodCommand s := by
  have hbyte : ∀ c : UInt8, isalpha c = true ∨ isdigit c = true → c ≠ ch ' ' ∧ c ≠ ch '@' ∧ c ≠ ch ':' := by
    decide +kernel
  have hall : ∀ c ∈ s, isalpha c = true ∨ isdigit c = true := by
    intro c hc
    rcases h with ⟨-, hs⟩ | hs
    · exact .inl (all_eq_true.1 hs c hc)
    · exact .inr (all_eq_true.1 (Bool.and_eq_true _ _ ▸ hs : _ ∧ _).2 c hc)
  have hne : s ≠ [] := by
    rcases h with ⟨hs, -⟩ | hs
    · exact hs
    · intro h0
      rw [h0] at hs
      exact absurd hs (by decide)
  have hhead : ∀ c, s.head? = some c → c ∈ s := fun c hc => mem_of_head? hc
  exact
    { ne := hne
      noSpace := fun hc => (hbyte _ (hall _ hc)).1 rfl
      noAt := fun hc => (hbyte _ (hall _ (hhead _ hc))).2.1 rfl
      noColon := fun hc => (hbyte _ (hall _ (hhead _ hc))).2.2 rfl }

variable {p : Prefix}

theorem Prefix.text_noSpace (h : p.Derivable) : ch ' ' ∉ p.text := by
  have hbang : ch ' ' ≠ ch '!' := by decide
  have hat : ch ' ' ≠ ch '@' := by decide
  cases p with
  | servername name => exact h.noSpace
  | nick sNick user host =>
    obtain ⟨hn, hu, hh⟩ := h
    cases user with
    | none =>
      cases host with
      | none => simp [Prefix.text, hn.noSpace]
      | some h => simp [Prefix.text, hn.noSpace, hat, (hh h rfl).noSpace]
    | some u =>
      cases host with
      | none => simp [Prefix.text, hn.noSpace, hbang, (hu u rfl).noSpace]
      | some h => simp [Prefix.text, hn.noSpace, hbang, hat, (hu u rfl).noSpace, (hh h rfl).noSpace]

/-- what is printed for the prefix `p` after it was read: the user of `nick!user` stands behind an '@' -/
def Prefix.printed : Prefix → CString
  | .nick sNick (some user) none => sNick ++ ch '@' :: user
  | p => p.text

/-- **A prefix read and printed.** -/
theorem getHostMask_parse (h : p.Derivable) : (CNick.empty.parse p.text).getHostMask = p.printed := by
  have hplain : ∀ s : CString, s ≠ [] → ch '!' ∉ s → s.head? ≠ some (ch ':') →
      (CNick.empty.parse s).getHostMask = s := by
    intro s hs hb hc
    rw [CNick.parse_nick _ hs hb, CNick.chompColon_eq_self hc]
    simp [CNick.getHostMask, CNick.empty]
  cases p with
  | servername name => exact hplain name h.ne h.noBang h.noColon
  | nick sNick user host =>
    obtain ⟨hn, hu, hh⟩ := h
    cases user with
    | none =>
      cases host with
      | none =>
        have htext : (Prefix.nick sNick none none).text = sNick := by simp [Prefix.text]
        rw [Prefix.printed, htext]
        · exact hplain sNick hn.ne hn.noBang hn.noColon
        · intro _ _ h0
          exact absurd h0 (by simp)
      | some h =>
        -- without '!' the host is part of the nick
        have htext : (Prefix.nick sNick none (some h)).text = sNick ++ ch '@' :: h := by simp [Prefix.text]
        rw [Prefix.printed, htext]
        · refine hplain _ (by simp) ?_ ?_
          · have : ch '!' ≠ ch '@' := by decide
            simp [hn.noBang, this, (hh h rfl).noBang]
          · rw [head?_append_of_ne_nil _ hn.ne]
            exact hn.noColon
        · intro _ _ h0
          exact absurd h0 (by simp)
    | some u =>
      cases host with
      | none =>
        have htext : (Prefix.nick sNick (some u) none).text = sNick ++ ch '!' :: u := by simp [Prefix.text]
        rw [htext, CNick.parse_user _ hn.noBang (hu u rfl).noAt, CNick.chompColon_eq_self hn.noColon]
        simp [CNick.getHostMask, CNick.empty, Prefix.printed, (hu u rfl).ne]
      | some h =>
        have htext : (Prefix.nick sNick (some u) (some h)).text = sNick ++ ch '!' :: (u ++ ch '@' :: h) := by
          simp [Prefix.text]
        rw [Prefix.printed, htext]
        · rw [CNick.parse_full _ hn.noBang (hu u rfl).noAt, CNick.chompColon_eq_self hn.noColon]
          simp [CNick.getHostMask, (hu u rfl).ne, (hh h rfl).ne]
        · intro _ _ h0
          exact absurd h0 (by simp)

theorem printed_eq_text_iff (p : Prefix) : p.printed = p.text ↔ p.userOnly = false := by
  have hmark : ch '@' ≠ ch '!' := by decide
  cases p with
  | servername name => exact ⟨fun _ => rfl, fun _ => rfl⟩
  | nick sNick user host =>
    cases user with
    | none => exact ⟨fun _ => rfl, fun _ => rfl⟩
    | some u =>
      cases host with
      | none => simp [Prefix.printed, Prefix.text, Prefix.userOnly, hmark]
      | some h => exact ⟨fun _ => rfl, fun _ => rfl⟩

theorem printed_noSpace (h : p.Derivable) : ch ' ' ∉ p.printed := by
  by_cases hu : p.userOnly = false
  · rw [(printed_eq_text_iff p).2 hu]
    exact Prefix.text_noSpace h
  · have hat : ch ' ' ≠ ch '@' := by decide
    cases p with
    | servername name => exact absurd rfl hu
    | nick sNick user host =>
      cases user with
      | none => exact absurd rfl hu
      | some u =>
        cases host with
        | none => simp [Prefix.printed, h.1.noSpace, hat, (h.2.1 u rfl).noSpace]
        | some h => exact absurd rfl hu

theorem printed_ne_nil (h : p.Derivable) : p.printed ≠ [] := by
  cases p with
  | servername name => exact h.ne
  | nick sNick user host =>
    have hne := h.1.ne
    cases user with
    | none => simp [Prefix.printed, Prefix.text, hne]
    | some u => cases host <;> simp [Prefix.printed, Prefix.text, hne]

theorem prefixPart_parsed {oPrefix : Option Prefix} (h : ∀ p ∈ oPrefix, p.Derivable) :
    prefixPart (parsedNick .empty (oPrefix.map Prefix.text)) = oPrefix.map Prefix.printed := by
  cases oPrefix with
  | none => rfl
  | some p =>
    have hmask := getHostMask_parse (h p rfl)
    rw [map_some, map_some, parsedNick, prefixPart, hmask, if_neg (printed_ne_nil (h p rfl))]

theorem lineOf_inj {oTags oPrefix oPrefix' oParams oParams' : Option CString} {sCommand : CString}
    (hp : OneWord oPrefix) (hp' : OneWord oPrefix') (hc : GoodCommand sCommand)
    (h : lineOf oTags oPrefix sCommand oParams = lineOf oTags oPrefix' sCommand oParams') :
    oPrefix = oPrefix' ∧ oParams = oParams' := by
  have hrest := append_cancel_left h
  have htake : ∀ {o q : Option CString}, OneWord o →
      takePart (ch ':') (leadPart (ch ':') o ++ (sCommand ++ lastPart q)) = (o, sCommand ++ lastPart q) := by
    intro o q ho
    obtain ⟨c, hhead, hsp, -, hcol⟩ := head_of_goodCommand hc (lastPart q)
    refine takePart_leadPart ho (by decide) ?_ ?_
    · rw [hhead]; exact fun h0 => hsp (some_inj.1 h0)
    · rw [hhead]; exact fun h0 => hcol (some_inj.1 h0)
  have hpair := (htake hp).symm.trans ((congrArg _ hrest).trans (htake hp'))
  obtain ⟨h1, h2⟩ := Prod.mk.inj hpair
  refine ⟨h1, ?_⟩
  have hlast := append_cancel_left h2
  cases oParams with
  | none =>
    cases oParams' with
    | none => rfl
    | some s => exact absurd hlast (by simp [lastPart])
  | some s =>
    cases oParams' with
    | none => exact absurd hlast (by simp [lastPart])
    | some s' => exact congrArg some (List.cons.inj hlast).2

theorem showParams_colonShown (vsParams : VCString) :
    showParams (colonShown false vsParams) vsParams = showParams false vsParams := by
  induction vsParams with
  | nil => rfl
  | cons p ps ih =>
    cases ps with
    | nil =>
      have hshow : colonShown false [p] = needsColon p := Bool.false_or _
      rw [showParams, showParams, hshow, Bool.or_self, Bool.false_or]
    | cons q ps =>
      have hlast : colonShown false (p :: q :: ps) = colonShown false (q :: ps) := by
        rw [colonShown, colonShown, getLast?_cons_cons]
      rw [showParams, showParams, hlast, ih]

theorem sender_oneWord {l : Line} (h : l.Derivable) : OneWord (l.oPrefix.map Prefix.text) := by
  intro s hs
  obtain ⟨p, hp, rfl⟩ := map_eq_some_iff.1 hs
  exact Prefix.text_noSpace (h.sender p hp)

theorem ofLine_text (utils : CUtils) (l : Line) (h : l.Derivable) (hv : SmallValues l.mssTags) :
    ∃ r, ofLine utils l.text = some r ∧ r.mssTags = l.mssTags ∧ r.sCommand = l.sCommand ∧ r.vsParams = l.vsParams ∧
      r.bColon = colonShown false l.vsParams ∧ r.nick = parsedNick .empty (l.oPrefix.map Prefix.text) := by
  have hparse := parse_lineOf (blank utils) l.mssTags
    (l.oPrefix.map Prefix.text) l.sCommand false l.vsParams h.keys (sender_oneWord h)
    (goodCommand_of_commandWord h.command) h.params
  rw [parseTags_tagsOf l.mssTags h.keys hv, map_some] at hparse
  refine ⟨_, by rw [ofLine, Line.text, hparse]; rfl, rfl, rfl, rfl, rfl, rfl⟩

theorem ofLine_text_none (utils : CUtils) (l : Line) (h : l.Derivable) (hv : ¬ SmallValues l.mssTags) :
    ofLine utils l.text = none := by
  have hparse := parse_lineOf (blank utils) l.mssTags
    (l.oPrefix.map Prefix.text) l.sCommand false l.vsParams h.keys (sender_oneWord h)
    (goodCommand_of_commandWord h.command) h.params
  rw [parseTags_none l.mssTags h.keys hv, map_none] at hparse
  rw [ofLine, Line.text, hparse]
  rfl

/-- **Parsing and printing.** A derivable line comes back as it was exactly if its prefix is not `nick!user`, the escaped
tag values are shorter than 2^32 bytes and the parameters fewer than 2^32. -/
theorem line_fidelity_iff (utils : CUtils) (l : Line) (h : l.Derivable) :
    (∃ r, ofLine utils l.text = some r ∧ r.toString IncludeAll = some l.text) ↔
      (∀ p ∈ l.oPrefix, p.userOnly = false) ∧ SmallValues l.mssTags ∧ l.vsParams.length < 2 ^ 32 := by
  have hcmd := goodCommand_of_commandWord h.command
  have hw := sender_oneWord h
  have hw' : OneWord (l.oPrefix.map Prefix.printed) := by
    intro s hs
    obtain ⟨p, hp, rfl⟩ := map_eq_some_iff.1 hs
    exact printed_noSpace (h.sender p hp)
  by_cases hv : SmallValues l.mssTags
  · obtain ⟨r, hr, htags, hcommand, hparams, hcolon, hnick⟩ := ofLine_text utils l h hv
    have hprint := toString_eq r (by rw [htags]; exact h.keys) (by rw [htags]; exact hv)
      (by rw [hcommand]; exact hcmd.ne)
    rw [htags, hnick, hcommand, prefixPart_parsed h.sender] at hprint
    constructor
    · rintro ⟨r', hr', hback⟩
      rw [hr, some_inj] at hr'
      subst hr'
      rw [hprint] at hback
      -- the printed line has the same prefix and the same parameters
      obtain ⟨oParams, ho, hline⟩ := map_eq_some_iff.1 hback
      obtain ⟨hpre, hlast⟩ := lineOf_inj hw' hw hcmd hline
      refine ⟨fun p hp => (printed_eq_text_iff p).1 ?_, hv, ?_⟩
      · rw [mem_def] at hp
        rw [hp] at hpre
        exact some_inj.1 hpre
      · by_contra hbig
        have hne : l.vsParams ≠ [] := by
          intro h0
          rw [h0] at hbig
          exact hbig (by decide)
        obtain ⟨s, hs, hshort⟩ := length_getParamsColon_lt r (by rw [hparams]; exact not_lt.1 hbig)
        rw [hparams, if_neg hne, hs, map_some, some_inj] at ho
        rw [← ho, paramsPart, if_neg hne, some_inj] at hlast
        rw [hlast, hparams, hcolon, showParams_colonShown] at hshort
        exact absurd hshort (lt_irrefl _)
    · rintro ⟨huser, -, hcount⟩
      refine ⟨r, hr, ?_⟩
      have hpre : l.oPrefix.map Prefix.printed = l.oPrefix.map Prefix.text := by
        cases ho : l.oPrefix with
        | none => rfl
        | some p => exact congrArg some ((printed_eq_text_iff p).2 (huser p ho))
      rw [hprint, hpre, getParamsColon_eq r (by rw [hparams]; exact hcount), hparams, hcolon, showParams_colonShown]
      unfold Line.text paramsPart
      split_ifs with hp
      · rfl
      · rfl
  · constructor
    · rintro ⟨r, hr, -⟩
      rw [ofLine_text_none utils l h hv] at hr
      exact absurd hr (by simp)
    · exact fun hc => absurd hc.2.1 hv

/-- a line of a server, with a tag and a last parameter in words -/
def sampleLine (oPrefix : Option Prefix) : Line :=
  ⟨OrdMap.empty.insert (lit "t") (lit "1;2"), oPrefix, lit "TOPIC", [lit "#c", lit "two words"]⟩

theorem sampleLine_derivable {oPrefix : Option Prefix} (h : ∀ p ∈ oPrefix, p.Derivable) :
    (sampleLine oPrefix).Derivable where
  keys := fun it hit => by
    obtain rfl : it = (lit "t", lit "1;2") := mem_singleton.1 hit
    exact ⟨by decide, by decide, by decide, by decide⟩
  sender := h
  command := by
    have hcommand : CommandWord (lit "TOPIC") := .inl ⟨by decide, by decide⟩
    exact hcommand
  params := fun p hp => by
    obtain rfl : p = lit "#c" := mem_singleton.1 hp
    rfl

/-- `nick!user@host` and `nick@host` come back -/
theorem line_fidelity_hosts :
    (∃ r, ofLine stoppedClock (sampleLine (some (.nick (lit "n") (some (lit "u")) (some (lit "h"))))).text = some r ∧
      r.toString IncludeAll = some (lit "@t=1\\:2 :n!u@h TOPIC #c :two words")) ∧
    ∃ r, ofLine stoppedClock (sampleLine (some (.nick (lit "n") none (some (lit "h"))))).text = some r ∧
      r.toString IncludeAll = some (lit "@t=1\\:2 :n@h TOPIC #c :two words") := by
  have hn : GoodName (lit "n") := ⟨by decide, by decide, by decide, by decide, by decide⟩
  have hu : ∀ u ∈ some (lit "u"), GoodUser u := by
    rintro u ⟨⟩
    exact ⟨by decide, by decide, by decide⟩
  have hh : ∀ h ∈ some (lit "h"), GoodHost h := by
    rintro h ⟨⟩
    exact ⟨by decide, by decide, by decide, by decide⟩
  have hv : SmallValues (OrdMap.empty.insert (lit "t") (lit "1;2")) := fun it hit => by
    obtain rfl : it = (lit "t", lit "1;2") := mem_singleton.1 hit
    decide
  constructor
  · refine (line_fidelity_iff stoppedClock _ (sampleLine_derivable ?_)).2 ⟨?_, hv, by decide⟩
    · rintro p ⟨⟩
      exact ⟨hn, hu, hh⟩
    · rintro p ⟨⟩
      rfl
  · refine (line_fidelity_iff stoppedClock _ (sampleLine_derivable ?_)).2 ⟨?_, hv, by decide⟩
    · rintro p ⟨⟩
      exact ⟨hn, fun u hu => absurd hu (by simp), hh⟩
    · rintro p ⟨⟩
      rfl

/-- the user of `n!u` is printed as a host -/
theorem line_fidelity_fails :
    (sampleLine (some (.nick (lit "n") (some (lit "u")) none))).Derivable ∧
      (sampleLine (some (.nick (lit "n") (some (lit "u")) none))).text = lit "@t=1\\:2 :n!u TOPIC #c :two words" ∧
      ((ofLine stoppedClock (lit "@t=1\\:2 :n!u TOPIC #c :two words")).bind fun r => r.toString IncludeAll) =
        some (lit "@t=1\\:2 :n@u TOPIC #c :two words") := by
  refine ⟨sampleLine_derivable ?_, by decide +kernel, by decide +kernel⟩
  rintro p ⟨⟩
  refine ⟨⟨by decide, by decide, by decide, by decide, by decide⟩, ?_, fun h hh => absurd hh (by simp)⟩
  rintro u ⟨⟩
  exact ⟨by decide, by decide, by decide⟩

end ZNC.CMessage
