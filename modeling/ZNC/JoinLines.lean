/-
The JOIN lines after a connect: `CIRCNetwork::JoinChans(sChans)`, which takes channels from the set as long as the line stays
short, and the loop around it.

The length is only looked at once there are keys or commas between them, so a second channel always fits behind a first one
that has no key.

Model: the set is ordered by the addresses of the channels, which can be any; it is a list in that order.

Results:
- `line_eq`: each line names the channels taken, and their keys at the same places;
- `line_short`: a line with several channels is short unless it starts with the exception above;
- `join_lines_iff`: every set is joined as it should be if and only if no such two channels are too long together;
- `join_lines_long`: two channels on one line of 512 bytes;
- `line_read`: a line is parsed as the channels with their keys.
-/
import ZNC.JoinKeys
import ZNC.MessageLine

namespace ZNC.JoinLines

open CString List

/-! ## Model -/

structure CChan where
  sName : CString
  sKey : CString
  named : sName ≠ []

instance CChan.decidableEq : DecidableEq CChan := fun c d =>
  decidable_of_iff (c.sName = d.sName ∧ c.sKey = d.sKey)
    ⟨fun ⟨h1, h2⟩ => by cases c; cases d; cases h1; cases h2; rfl, fun h => h ▸ ⟨rfl, rfl⟩⟩

theorem chanName_ne (net : JoinedChans.CIRCNetwork) (sName : CString) : net.chanName sName ≠ [] := by
  simp only [JoinedChans.CIRCNetwork.chanName]
  split
  · rename_i hchan
    intro hnil
    rw [hnil] at hchan
    exact Bool.false_ne_true hchan
  · exact cons_ne_nil _ _

/-- `CChan::CChan(sName, pNetwork)` -/
def CChan.new (net : JoinedChans.CIRCNetwork) (sName : CString) : CChan :=
  ⟨net.chanName sName, sName.token 1 false 0x20 false, chanName_ne net sName⟩

/-- the variables of `JoinChans(sChans)`, and the channels erased from the set -/
structure Vars where
  sKeys : CString
  sJoin : CString
  bHaveKey : Bool
  uiJoinLength : ℕ
  erased : List CChan

/-- the variables at the start -/
def Vars.start : Vars := ⟨[], [], false, (lit "JOIN ").length, []⟩

/-- what the channel adds to the length, with two commas -/
def CChan.len (chan : CChan) : ℕ := chan.sName.length + chan.sKey.length + 2

/-- one channel more -/
def Vars.add (v : Vars) (chan : CChan) : Vars :=
  let comma := if v.sJoin ≠ [] then lit "," else []
  { sKeys := v.sKeys ++ comma ++ chan.sKey
    sJoin := v.sJoin ++ comma ++ chan.sName
    bHaveKey := v.bHaveKey || chan.sKey ≠ []
    uiJoinLength := v.uiJoinLength + chan.len
    erased := v.erased ++ [chan] }

/-- the loop over the set -/
def joinLoop (v : Vars) : List CChan → Vars × List CChan
  | [] => (v, [])
  | chan :: sChans =>
    if v.sKeys ≠ [] ∧ v.uiJoinLength + chan.len ≥ 512 then (v, chan :: sChans) else joinLoop (v.add chan) sChans

def Vars.line (v : Vars) : CString :=
  if v.bHaveKey then lit "JOIN " ++ v.sJoin ++ lit " " ++ v.sKeys else lit "JOIN " ++ v.sJoin

/-- `JoinChans(sChans)`: the line with the channels erased from the set, and the set afterwards -/
def joinChans (sChans : List CChan) : (CString × List CChan) × List CChan :=
  let r := joinLoop .start sChans
  ((r.1.line, r.1.erased), r.2)

/-- `while (!sChans.empty()) JoinChans(sChans)`: nothing if the rounds do not suffice -/
def joinAll : ℕ → List CChan → Option (List (CString × List CChan))
  | _, [] => some []
  | 0, _ :: _ => none
  | rounds + 1, chan :: sChans =>
    let r := joinChans (chan :: sChans)
    (joinAll rounds r.2).map (r.1 :: ·)

/-! ## Statement -/

/-- a JOIN of these channels with their keys, if there are any -/
def lineOf (chans : List CChan) : CString :=
  lit "JOIN " ++ join (lit ",") (chans.map (·.sName)) ++
    if chans.any (·.sKey ≠ []) then lit " " ++ join (lit ",") (chans.map (·.sKey)) else []

/-- the channels of the set are joined: the loop ends, each channel is on exactly one line, with its key, and the lines with
several channels are short -/
structure Joined (sChans : List CChan) : Prop where
  ends : ∃ rounds, (joinAll rounds sChans).isSome
  once {rounds : ℕ} {lines : List (CString × List CChan)} : joinAll rounds sChans = some lines →
    (lines.map (·.2)).flatten = sChans
  keyed {rounds : ℕ} {lines : List (CString × List CChan)} : joinAll rounds sChans = some lines →
    ∀ l ∈ lines, l.1 = lineOf l.2
  short {rounds : ℕ} {lines : List (CString × List CChan)} : joinAll rounds sChans = some lines →
    ∀ l ∈ lines, 2 ≤ l.2.length → l.1.length < 512

/-! ## One line -/

/-- the variables after some channels -/
def Vars.of (chans : List CChan) : Vars := chans.foldl .add .start

variable (chans : List CChan)

theorem of_concat (chan : CChan) : Vars.of (chans ++ [chan]) = (Vars.of chans).add chan := by
  rw [Vars.of, foldl_append]
  rfl

theorem join_concat (ws : VCString) (w : CString) :
    join (lit ",") (ws ++ [w]) = join (lit ",") ws ++ (if ws ≠ [] then lit "," else []) ++ w := by
  cases ws with
  | nil => simp [join]
  | cons w' ws => simp [join_cons]

theorem of_eq :
    (Vars.of chans).sKeys = join (lit ",") (chans.map (·.sKey)) ∧
      (Vars.of chans).sJoin = join (lit ",") (chans.map (·.sName)) ∧
      (Vars.of chans).bHaveKey = chans.any (·.sKey ≠ []) ∧ (Vars.of chans).uiJoinLength = 5 + (chans.map (·.len)).sum ∧
      (Vars.of chans).erased = chans := by
  induction chans using List.reverseRecOn with
  | nil => exact ⟨rfl, rfl, rfl, rfl, rfl⟩
  | append_singleton chans chan ih =>
    obtain ⟨hkeys, hjoin, hhave, hlength, herased⟩ := ih
    have hcomma : ((Vars.of chans).sJoin ≠ []) = (chans ≠ []) := by
      rw [hjoin]
      cases chans with
      | nil => simp [join]
      | cons c chans => simp [join_cons, c.named]
    rw [of_concat, Vars.add]
    simp only [hcomma]
    refine ⟨?_, ?_, ?_, ?_, ?_⟩
    · rw [hkeys, map_append, map_singleton, join_concat]
      simp
    · rw [hjoin, map_append, map_singleton, join_concat]
      simp
    · rw [hhave, any_append]
      simp
    · rw [hlength, map_append, sum_append, map_singleton, sum_singleton, Nat.add_assoc]
    · rw [herased]

theorem line_eq : (Vars.of chans).line = lineOf chans := by
  obtain ⟨hkeys, hjoin, hhave, -, -⟩ := of_eq chans
  rw [Vars.line, lineOf, hkeys, hjoin, hhave]
  split <;> simp

theorem length_join_comma (ws : VCString) (hne : ws ≠ []) :
    (join (lit ",") ws).length + 1 = (ws.map (·.length + 1)).sum := by
  have hcomma : (lit ",").length = 1 := rfl
  induction ws using List.reverseRecOn with
  | nil => exact absurd rfl hne
  | append_singleton ws w ih =>
    rw [join_concat, map_append, sum_append, map_singleton, sum_singleton]
    by_cases hnil : ws = []
    · simp [hnil, join]
    · rw [if_pos hnil, ← ih hnil, length_append, length_append, hcomma]
      omega

theorem length_lineOf {chans : List CChan} (hne : chans ≠ []) :
    (lineOf chans).length < (Vars.of chans).uiJoinLength := by
  have hnames := length_join_comma (chans.map (·.sName)) (by simpa using hne)
  have hkeys := length_join_comma (chans.map (·.sKey)) (by simpa using hne)
  have hsum : (chans.map (·.len)).sum =
      ((chans.map (·.sName)).map (·.length + 1)).sum + ((chans.map (·.sKey)).map (·.length + 1)).sum := by
    clear hne hnames hkeys
    induction chans with
    | nil => rfl
    | cons chan chans ih =>
      simp only [map_cons, sum_cons]
      rw [ih, CChan.len]
      omega
  have hjoin : (lit "JOIN ").length = 5 := rfl
  have hspace : (lit " ").length = 1 := rfl
  rw [(of_eq chans).2.2.2.1, hsum, lineOf, length_append, length_append, hjoin]
  split
  · rw [length_append, hspace]
    omega
  · rw [length_nil]
    omega

/-- the line has one channel, or is short, or has two channels of which the first has no key -/
def Packed (chans : List CChan) : Prop :=
  2 ≤ chans.length → (Vars.of chans).uiJoinLength < 512 ∨ ∃ chan chan', chans = [chan, chan'] ∧ chan.sKey = []

theorem sKeys_eq_nil {chans : List CChan} (h : (Vars.of chans).sKeys = []) :
    chans = [] ∨ ∃ chan, chans = [chan] ∧ chan.sKey = [] := by
  rw [(of_eq chans).1] at h
  match chans, h with
  | [], _ => exact .inl rfl
  | [chan], h => exact .inr ⟨chan, rfl, by simpa [join_cons] using h⟩
  | chan :: chan' :: chans, h =>
    have hcomma : lit "," ≠ [] := by decide
    simp [join_cons, hcomma] at h

theorem joinLoop_eq (sChans : List CChan) (h : Packed chans) :
    ∃ taken rest, sChans = taken ++ rest ∧ joinLoop (.of chans) sChans = (.of (chans ++ taken), rest) ∧
      Packed (chans ++ taken) := by
  induction sChans generalizing chans with
  | nil => exact ⟨[], [], rfl, by rw [append_nil, joinLoop], by rwa [append_nil]⟩
  | cons chan sChans ih =>
    rw [joinLoop]
    split
    · exact ⟨[], chan :: sChans, rfl, by rw [append_nil], by rwa [append_nil]⟩
    · rename_i hfits
      have hnext : Packed (chans ++ [chan]) := by
        intro hlen
        rcases eq_or_ne (Vars.of chans).sKeys [] with hkeys | hkeys
        · -- the length was not looked at
          rcases sKeys_eq_nil hkeys with rfl | ⟨chan', rfl, hkey⟩
          · exact absurd hlen (by simp)
          · exact .inr ⟨chan', chan, rfl, hkey⟩
        · refine .inl ?_
          rw [of_concat]
          exact not_le.1 fun hlong => hfits ⟨hkeys, hlong⟩
      obtain ⟨taken, rest, hsplit, hloop, hpacked⟩ := ih (chans ++ [chan]) hnext
      refine ⟨chan :: taken, rest, by rw [hsplit, cons_append], ?_, ?_⟩
      · rw [← of_concat, hloop, append_assoc, singleton_append]
      · rwa [append_assoc, singleton_append] at hpacked

theorem joinChans_eq (chan : CChan) (sChans : List CChan) :
    ∃ taken rest, sChans = taken ++ rest ∧
      joinChans (chan :: sChans) = ((lineOf (chan :: taken), chan :: taken), rest) ∧
      Packed (chan :: taken) := by
  have hone : Packed [chan] := fun hlen => absurd hlen (by simp)
  obtain ⟨taken, rest, hsplit, hloop, hpacked⟩ := joinLoop_eq [chan] sChans hone
  have hfirst : joinLoop .start (chan :: sChans) = (.of (chan :: taken), rest) := by
    rw [joinLoop, if_neg fun h => h.1 rfl]
    exact hloop
  refine ⟨taken, rest, hsplit, ?_, hpacked⟩
  rw [joinChans, hfirst, line_eq, (of_eq _).2.2.2.2]

/-! ## All lines -/

theorem joinAll_isSome (rounds : ℕ) (sChans : List CChan) (h : sChans.length ≤ rounds) :
    (joinAll rounds sChans).isSome := by
  induction rounds generalizing sChans with
  | zero =>
    rw [length_eq_zero_iff.1 (Nat.le_zero.1 h)]
    rfl
  | succ rounds ih =>
    cases sChans with
    | nil => rfl
    | cons chan sChans =>
      obtain ⟨taken, rest, hsplit, hround, -⟩ := joinChans_eq chan sChans
      have hrest : rest.length ≤ rounds := by
        rw [length_cons, hsplit, length_append] at h
        omega
      rw [joinAll, hround, Option.isSome_map]
      exact ih rest hrest

theorem joinAll_lines {rounds : ℕ} {sChans : List CChan} {lines : List (CString × List CChan)}
    (h : joinAll rounds sChans = some lines) :
    (lines.map (·.2)).flatten = sChans ∧ ∀ l ∈ lines, l.1 = lineOf l.2 ∧ Packed l.2 := by
  induction rounds generalizing sChans lines with
  | zero =>
    cases sChans with
    | nil =>
      rw [← Option.some.inj h]
      exact ⟨rfl, fun l hl => nomatch hl⟩
    | cons chan sChans => exact nomatch h
  | succ rounds ih =>
    cases sChans with
    | nil =>
      rw [← Option.some.inj h]
      exact ⟨rfl, fun l hl => nomatch hl⟩
    | cons chan sChans =>
      obtain ⟨taken, rest, hsplit, hround, hpacked⟩ := joinChans_eq chan sChans
      rw [joinAll, hround] at h
      obtain ⟨lines', hlines, rfl⟩ := Option.map_eq_some_iff.1 h
      obtain ⟨hflat, hall⟩ := ih hlines
      refine ⟨?_, fun l hl => ?_⟩
      · rw [map_cons, flatten_cons, hflat, hsplit, cons_append]
      · rcases mem_cons.1 hl with rfl | hl
        · exact ⟨rfl, hpacked⟩
        · exact hall l hl

theorem line_short {rounds : ℕ} {sChans : List CChan} {lines : List (CString × List CChan)}
    (h : joinAll rounds sChans = some lines)
    {l : CString × List CChan} (hl : l ∈ lines) (hseveral : 2 ≤ l.2.length) :
    l.1.length < 512 ∨ ∃ chan chan', l.2 = [chan, chan'] ∧ chan.sKey = [] := by
  obtain ⟨hline, hpacked⟩ := (joinAll_lines h).2 l hl
  refine (hpacked hseveral).imp_left fun hshort => ?_
  have hne : l.2 ≠ [] := ne_nil_of_length_pos (by omega)
  rw [hline]
  exact (length_lineOf hne).trans hshort

theorem joinChans_long {chan chan' : CChan} (hkey : chan.sKey = []) (hlong : 512 ≤ (lineOf [chan, chan']).length)
    (rest : List CChan) : joinChans (chan :: chan' :: rest) = ((lineOf [chan, chan'], [chan, chan']), rest) := by
  have hnokeys : (Vars.of [chan]).sKeys = [] := by simp [of_eq, hkey, join]
  have hstop : joinLoop (.of [chan, chan']) rest = (.of [chan, chan'], rest) := by
    cases rest with
    | nil => rfl
    | cons chan'' rest =>
      have hsome : (Vars.of [chan, chan']).sKeys ≠ [] := fun hnil => by simpa using sKeys_eq_nil hnil
      have hover := length_lineOf (cons_ne_nil chan [chan'])
      rw [joinLoop, if_pos ⟨hsome, by omega⟩]
  have hloop : joinLoop .start (chan :: chan' :: rest) = (.of [chan, chan'], rest) := by
    rw [joinLoop, if_neg fun h => h.1 rfl]
    change joinLoop (.of [chan]) (chan' :: rest) = _
    rw [joinLoop, if_neg fun h => h.1 hnokeys]
    exact hstop
  rw [joinChans, hloop, line_eq, (of_eq _).2.2.2.2]

/-- A set is joined as it should be, whatever the addresses of its channels are, **if and only if** no channel without a key is
too long for one line with another channel. -/
theorem join_lines_iff (sChans : List CChan) :
    (∀ order, order.Perm sChans → Joined order) ↔
      ∀ chan chan' rest, (chan :: chan' :: rest).Perm sChans → chan.sKey = [] →
        (lineOf [chan, chan']).length < 512 := by
  constructor
  · intro h chan chan' rest hperm hkey
    by_contra hshort
    have hround := joinChans_long hkey (not_lt.1 hshort) rest
    obtain ⟨lines, hlines⟩ := Option.isSome_iff_exists.1 (joinAll_isSome rest.length rest le_rfl)
    have hall : joinAll (rest.length + 1) (chan :: chan' :: rest) =
      some ((lineOf [chan, chan'], [chan, chan']) :: lines) := by
      rw [joinAll, hround, hlines, Option.map_some]
    exact hshort ((h _ hperm).short hall _ mem_cons_self le_rfl)
  · intro h order hperm
    refine ⟨⟨order.length, joinAll_isSome _ _ le_rfl⟩, fun hlines => (joinAll_lines hlines).1,
      fun hlines l hl => ((joinAll_lines hlines).2 l hl).1, fun {rounds lines} hlines l hl hseveral => ?_⟩
    rcases line_short hlines hl hseveral with hshort | ⟨chan, chan', hpair, hkey⟩
    · exact hshort
    · -- the two channels stand in the set
      obtain ⟨before, after, hsplit⟩ := append_of_mem (mem_map_of_mem (f := (·.2)) hl)
      have hflat := (joinAll_lines hlines).1
      rw [hsplit, flatten_append, flatten_cons, hpair] at hflat
      have hfront : (chan :: chan' :: (before.flatten ++ after.flatten)).Perm sChans := by
        refine .trans ?_ (hflat ▸ hperm)
        exact (perm_append_comm_assoc [chan, chan'] before.flatten after.flatten)
      rw [((joinAll_lines hlines).2 l hl).1, hpair]
      exact h chan chan' _ hfront hkey

/-- a channel with a name of 253 bytes and no key -/
def longChan (c : Char) : CChan := ⟨lit "#" ++ List.replicate 252 (ch c), [], cons_ne_nil _ _⟩

/-- two such channels go on one line of 512 bytes -/
theorem join_lines_long : ¬Joined [longChan 'a', longChan 'b'] := by
  intro h
  have hrun : joinAll 1 [longChan 'a', longChan 'b'] =
      some [(lineOf [longChan 'a', longChan 'b'], [longChan 'a', longChan 'b'])] := by decide +kernel
  have hlength : (lineOf [longChan 'a', longChan 'b']).length = 512 := by decide +kernel
  exact absurd (h.short hrun _ (mem_singleton.2 rfl) le_rfl) hlength.not_lt

/-! ## Lines read back -/

/-- neither separates channels nor ends a parameter -/
structure Plain (s : CString) : Prop where
  comma : ch ',' ∉ s
  nul : 0 ∉ s
  space : ch ' ' ∉ s
  colon : s.head? ≠ some (ch ':')

instance Plain.decidable (s : CString) : Decidable (Plain s) :=
  decidable_of_iff (ch ',' ∉ s ∧ 0 ∉ s ∧ ch ' ' ∉ s ∧ s.head? ≠ some (ch ':'))
    ⟨fun ⟨h1, h2, h3, h4⟩ => ⟨h1, h2, h3, h4⟩, fun ⟨h1, h2, h3, h4⟩ => ⟨h1, h2, h3, h4⟩⟩

/-- a list of such texts is one parameter -/
theorem join_word {ws : VCString} (h : ∀ w ∈ ws, Plain w) (hne : join (lit ",") ws ≠ []) :
    CMessage.needsColon (join (lit ",") ws) = false := by
  have hspace : ch ' ' ∉ join (lit ",") ws := not_mem_join (by decide) fun w hw => (h w hw).space
  have hcolon : (join (lit ",") ws).head? ≠ some (ch ':') := by
    cases ws with
    | nil => exact fun hhead => nomatch hhead
    | cons w ws =>
      rw [join_cons, head?_append]
      intro hhead
      cases w with
      | nil =>
        cases ws with
        | nil => exact absurd hhead (by decide)
        | cons w' ws => exact absurd (Option.some.inj hhead) (by decide)
      | cons c w => exact (h _ mem_cons_self).colon hhead
  simp [CMessage.needsColon, hne, hspace, hcolon]

variable {chans}

theorem pairs_lineOf (h : ∀ chan ∈ chans, Plain chan.sName ∧ Plain chan.sKey) (sKeys : VCString)
    (hkeys : ∀ sKey ∈ sKeys, Plain sKey) (hplace : ∀ i (hi : i < chans.length), sKeys.getD i [] = chans[i].sKey) :
    JoinKeys.pairs (join (lit ",") (chans.map (·.sName))) (join (lit ",") sKeys) =
      chans.map fun chan => (chan.sName, chan.sKey) := by
  rw [JoinKeys.pairs_join _ fun sKey hmem => ⟨(hkeys sKey hmem).comma, (hkeys sKey hmem).nul⟩]
  · refine ext_getElem (by simp) fun i _ hi => ?_
    rw [length_map] at hi
    rw [getElem_mapIdx, getElem_map, getElem_map, hplace i hi]
  · intro sChan hmem
    obtain ⟨chan, hchan, rfl⟩ := mem_map.1 hmem
    exact ⟨chan.named, (h chan hchan).1.comma, (h chan hchan).1.nul⟩

theorem parse_join (m : CMessage) (vsParams : VCString) (hne : vsParams ≠ [])
    (h : ∀ sParam ∈ vsParams, CMessage.needsColon sParam = false) :
    ∃ Message, m.parse (lit "JOIN " ++ join (lit " ") vsParams) = some Message ∧ Message.sCommand = lit "JOIN" ∧
      Message.vsParams = vsParams := by
  have hshow : ∀ vs : VCString, (∀ sParam ∈ vs, CMessage.needsColon sParam = false) →
      CMessage.showParams false vs = vs := by
    intro vs
    induction vs with
    | nil => exact fun _ => rfl
    | cons sParam vs ih =>
      intro hvs
      rw [forall_mem_cons] at hvs
      cases vs with
      | nil => simp [CMessage.showParams, hvs.1]
      | cons sNext vs => rw [CMessage.showParams, ih hvs.2]
  have hparse := @CMessage.parse_lineOf m .empty none (lit "JOIN") false vsParams (fun _ hit => absurd hit not_mem_nil)
    (fun _ ht => absurd ht (Option.not_mem_none _)) ⟨by decide, by decide, by decide, by decide⟩
    fun sParam hmem => h sParam (mem_of_mem_dropLast hmem)
  rw [CMessage.paramsPart, if_neg hne, hshow _ h] at hparse
  exact ⟨_, hparse, rfl, rfl⟩

/-- **A line of `JoinChans`** is parsed as a JOIN of the channels taken from the set, each with its key, in their order. -/
theorem line_read (m : CMessage) (chan : CChan) (sChans : List CChan)
    (h : ∀ c ∈ chan :: sChans, Plain c.sName ∧ Plain c.sKey) :
    ∃ Message, m.parse (joinChans (chan :: sChans)).1.1 = some Message ∧ Message.sCommand = lit "JOIN" ∧
      JoinKeys.pairs (Message.getParam 0) (Message.getParam 1) =
        (joinChans (chan :: sChans)).1.2.map fun c => (c.sName, c.sKey) := by
  obtain ⟨taken, rest, hsplit, hround, -⟩ := joinChans_eq chan sChans
  have hplain : ∀ c ∈ chan :: taken, Plain c.sName ∧ Plain c.sKey := by
    intro c hc
    refine h c ?_
    rw [hsplit, ← cons_append]
    exact mem_append_left _ hc
  have hnames : CMessage.needsColon (join (lit ",") ((chan :: taken).map (·.sName))) = false := by
    refine join_word (fun w hw => ?_) (by simp [join_cons, chan.named])
    obtain ⟨c, hc, rfl⟩ := mem_map.1 hw
    exact (hplain c hc).1
  have hkeys : ∀ w ∈ (chan :: taken).map (·.sKey), Plain w := by
    intro w hw
    obtain ⟨c, hc, rfl⟩ := mem_map.1 hw
    exact (hplain c hc).2
  rw [hround]
  by_cases hhave : (chan :: taken).any (·.sKey ≠ []) = true
  · have hsome : join (lit ",") ((chan :: taken).map (·.sKey)) ≠ [] := by
      intro hnil
      rw [← (of_eq _).1] at hnil
      rcases sKeys_eq_nil hnil with hnone | ⟨c, hone, hkey⟩
      · exact absurd hnone (cons_ne_nil _ _)
      · rw [hone] at hhave
        simp [hkey] at hhave
    obtain ⟨Message, hparse, hcommand, hparams⟩ := parse_join m
      [join (lit ",") ((chan :: taken).map (·.sName)), join (lit ",") ((chan :: taken).map (·.sKey))]
      (cons_ne_nil _ _) (forall_mem_cons.2 ⟨hnames, fun sParam hmem => by
        rw [mem_singleton.1 hmem]
        exact join_word hkeys hsome⟩)
    refine ⟨Message, ?_, hcommand, ?_⟩
    · rw [← hparse, lineOf, if_pos hhave]
      simp [join_cons]
    · rw [CMessage.getParam, CMessage.getParam, hparams]
      refine pairs_lineOf hplain _ hkeys fun i hi => ?_
      rw [getD_eq_getElem?_getD, getElem?_map, getElem?_eq_getElem hi]
      rfl
  · have hnone : ∀ c ∈ chan :: taken, c.sKey = [] := by
      intro c hc
      by_contra hne
      exact hhave (any_eq_true.2 ⟨c, hc, by simpa using hne⟩)
    obtain ⟨Message, hparse, hcommand, hparams⟩ := parse_join m
      [join (lit ",") ((chan :: taken).map (·.sName))] (cons_ne_nil _ _) fun sParam hmem => by
        rw [mem_singleton.1 hmem]
        exact hnames
    refine ⟨Message, ?_, hcommand, ?_⟩
    · rw [← hparse, lineOf, if_neg hhave]
      simp [join_cons]
    · rw [CMessage.getParam, CMessage.getParam, hparams]
      refine pairs_lineOf hplain [] (fun sKey hmem => nomatch hmem) fun i hi => ?_
      rw [hnone _ (getElem_mem hi)]
      rfl

/-- a channel with a key and one without -/
theorem line_read_two :
    let sChans : List CChan := [⟨lit "#a", lit "key", by decide⟩, ⟨lit "#b", [], by decide⟩]
    (joinChans sChans).1.1 = lit "JOIN #a,#b key," ∧
      ∃ Message, (CMessage.blank CMessage.stoppedClock).parse (joinChans sChans).1.1 = some Message ∧
        Message.sCommand = lit "JOIN" ∧ JoinKeys.pairs (Message.getParam 0) (Message.getParam 1) =
          (joinChans sChans).1.2.map fun c => (c.sName, c.sKey) :=
  ⟨by decide, line_read _ _ _ (by decide)⟩

end ZNC.JoinLines
