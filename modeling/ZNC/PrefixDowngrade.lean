/-
What a client gets of a line from the server: `CClient::PutClient` of `src/Client.cpp`.

A server with NAMESX lists a nick with all its prefixes, one with UHNAMES with its user and host. A client that has not asked
for the one gets the first prefix only, a client that has not asked for the other the nick alone: in the list of a 353 line, and
in the flags of a 352 line for the prefixes.

Results:
- `shownNick_eq_dueNick_iff`, `shownFlags_eq_dueFlags_iff`: the nicks of a list and the flags that come out so;
- `putClient_due_iff`: the same of the whole line.

Model: the message as it goes to the modules, which may still change it or hold it back.
-/
import ZNC.ISupport
import ZNC.Buffer
import ZNC.Token

namespace ZNC.PrefixDowngrade

open CString List

/-! ## Model -/

structure CIRCSock extends ServerTables where
  bExtendedJoin : Bool

structure CClient where
  sNick : CString
  bNamesx : Bool
  bUHNames : Bool
  bAwayNotify : Bool
  bAccountNotify : Bool
  bInviteNotify : Bool
  bExtendedJoin : Bool
  bMessageTagCap : Bool
  bServerTime : Bool
  ssSupportedTags : SCString

def findFirstNotOf (sNick s : CString) : Option ℕ := sNick.findIdx? fun c => c ∉ s

/-- `sNick[0] + sNick.substr(pos)`, where more than one prefix is found in front of something else -/
def firstPerm (sock : CIRCSock) (sNick : CString) : CString :=
  match findFirstNotOf sNick sock.sPerms with
  | some pos => if 2 ≤ pos then sNick.take 1 ++ sNick.drop pos else sNick
  | none => sNick

def getCode (m : CMessage) : UInt32 := m.sCommand.toUInt

namespace CClient

/-- `!m_bNamesx && pIRCSock->HasNamesx()` -/
def lacksNamesx (client : CClient) (sock : CIRCSock) : Bool := !client.bNamesx && sock.bNamesx

/-- `!m_bUHNames && pIRCSock->HasUHNames()` -/
def lacksUHNames (client : CClient) (sock : CIRCSock) : Bool := !client.bUHNames && sock.bUHNames

/-- RPL_WHOREPLY -/
def whoReply (client : CClient) (sock : CIRCSock) (m : CMessage) : Option CMessage :=
  if client.lacksNamesx sock then
    let sNick := m.getParam 6
    if 1 < sNick.length && sock.isPermChar (sNick.getD 1 0) then m.setParam 6 (firstPerm sock sNick) else some m
  else some m

def shownNick (client : CClient) (sock : CIRCSock) (sNick : CString) : CString :=
  let sNick := if client.lacksNamesx sock && sock.isPermChar (sNick.headD 0) then firstPerm sock sNick else sNick
  if client.lacksUHNames sock then sNick.token 0 false (ch '!') false else sNick

/-- the loop over the list; an empty nick ends it -/
def nickLoop (client : CClient) (sock : CIRCSock) : VCString → VCString
  | [] => []
  | sNick :: vsNicks => if sNick = [] then sNick :: vsNicks else client.shownNick sock sNick :: nickLoop client sock vsNicks

def names (client : CClient) (sock : CIRCSock) (m : CMessage) : Option CMessage :=
  if client.lacksNamesx sock || client.lacksUHNames sock then
    m.setParam 3 ((lit " ").join (client.nickLoop sock ((m.getParam 3).split (ch ' ') false)))
  else some m

/-- the switch over the types: a client gets some only if it has asked for them -/
def takes (client : CClient) (m : CMessage) : Bool :=
  match m.eType with
  | .Away => client.bAwayNotify
  | .Account => client.bAccountNotify
  | .TagMsg => client.bMessageTagCap
  | .Invite => client.bInviteNotify || (CNick.empty.parse (m.getParam 0)).nickEquals client.sNick
  | _ => true

/-- what the capabilities of the server and the client make of a message -/
def adapt (client : CClient) (sock : CIRCSock) (m : CMessage) : Option CMessage :=
  if m.eType = .Numeric then
    if getCode m = 352 then client.whoReply sock m
    else if getCode m = 353 then client.names sock m
    else some m
  else if m.eType = .Join then
    if !client.bExtendedJoin && sock.bExtendedJoin then some (m.setParams [m.getParam 0]) else some m
  else some m

def tagsFor (client : CClient) (utils : CUtils) (m : CMessage) : MCString :=
  let mssTags :=
    if client.bMessageTagCap then m.mssTags
    else .ofList (m.mssTags.entries.filter fun it => it.1 ∈ client.ssSupportedTags)
  -- `emplace` leaves a time that the server has set
  if client.bServerTime && (mssTags.find (lit "time")).isNone then
    mssTags.insert (lit "time") (utils.formatServerTime m.time)
  else mssTags

/-- `PutClient(Message)`, up to the modules; nothing if the client does not get the message -/
def putClient (client : CClient) (utils : CUtils) (pIRCSock : Option CIRCSock) (m : CMessage) : Option CMessage :=
  if client.takes m then
    let adapted := match pIRCSock with
      | some sock => client.adapt sock m
      | none => some m
    adapted.map fun m => { m with mssTags := client.tagsFor utils m }
  else none

end CClient

/-! ## What is due -/

/-- the prefixes in front of a nick -/
def prefixes (sock : CIRCSock) (sNick : CString) : CString := sNick.takeWhile fun c => c ∈ sock.sPerms

/-- what stands behind them -/
def bareNick (sock : CIRCSock) (sNick : CString) : CString := sNick.dropWhile fun c => c ∈ sock.sPerms

/-- the flags up to the first prefix, and of those behind it the others -/
def keepFirst (sock : CIRCSock) : CString → CString
  | [] => []
  | c :: s => if c ∈ sock.sPerms then c :: s.filter (fun c => c ∉ sock.sPerms) else c :: keepFirst sock s

namespace CClient

/-- a nick of the list: the first prefix or all of them, the nick, and the user and host or not -/
def dueNick (client : CClient) (sock : CIRCSock) (sNick : CString) : CString :=
  (if client.lacksNamesx sock then (prefixes sock sNick).take 1 else prefixes sock sNick) ++
    if client.lacksUHNames sock then (bareNick sock sNick).takeWhile (· ≠ ch '!') else bareNick sock sNick

def dueFlags (client : CClient) (sock : CIRCSock) (sFlags : CString) : CString :=
  if client.lacksNamesx sock then keepFirst sock sFlags else sFlags

/-- the parameters of a 352 or 353 line -/
def dueParams (client : CClient) (sock : CIRCSock) (m : CMessage) : VCString :=
  if getCode m = 352 then m.vsParams.modify 6 (client.dueFlags sock)
  else if client.lacksNamesx sock || client.lacksUHNames sock then
    m.vsParams.modify 3 fun sNicks => (lit " ").join ((sNicks.split (ch ' ') false).map (client.dueNick sock))
  else m.vsParams

/-- the line: only the parameters differ, and the tags are those that the client takes -/
def due (client : CClient) (utils : CUtils) (sock : CIRCSock) (m : CMessage) : CMessage :=
  { m with vsParams := client.dueParams sock m, mssTags := client.tagsFor utils m }

end CClient

/-! ## When it is sent -/

/-- a nick of a list that comes out right, if the prefixes (`bFirst`) or the host (`bCut`) are to go -/
def GoodNick (sock : CIRCSock) (bFirst bCut : Bool) (sNick : CString) : Prop :=
  if bFirst = true ∧ 2 ≤ (prefixes sock sNick).length ∧ bareNick sock sNick = [] then
    -- nothing but prefixes: they stay, unless the second one is taken for the end of the nick
    bCut = true ∧ sNick.head? ≠ some (ch '!') ∧ sNick[1]? = some (ch '!')
  else
    bCut = true → ch '!' ∉ (if bFirst then (prefixes sock sNick).take 1 else prefixes sock sNick) ∧
      (prefixes sock sNick = [] → sNick.head? = some (ch '!') → ∀ c ∈ sNick, c = ch '!')

/-- flags that come out right: one prefix at most, or several in front of the letters -/
def GoodFlags (sock : CIRCSock) (sFlags : CString) : Prop :=
  (sFlags.filter fun c => c ∈ sock.sPerms).length ≤ 1 ∨
    (2 ≤ (prefixes sock sFlags).length ∧ sFlags.getD 1 0 ≠ 0 ∧ bareNick sock sFlags ≠ [] ∧
      ∀ c ∈ bareNick sock sFlags, c ∉ sock.sPerms)

instance (sock : CIRCSock) (bFirst bCut : Bool) (sNick : CString) : Decidable (GoodNick sock bFirst bCut sNick) :=
  inferInstanceAs (Decidable (ite _ _ _))

instance (sock : CIRCSock) (sFlags : CString) : Decidable (GoodFlags sock sFlags) :=
  inferInstanceAs (Decidable (_ ∨ (_ ∧ _ ∧ _ ∧ _)))

namespace CClient

/-- the lines that come out right -/
def Adapts (client : CClient) (sock : CIRCSock) (m : CMessage) : Prop :=
  if getCode m = 352 then client.lacksNamesx sock = true → GoodFlags sock (m.getParam 6)
  else client.lacksNamesx sock = true ∨ client.lacksUHNames sock = true →
    4 ≤ m.vsParams.length ∧
      ∀ sNick ∈ (m.getParam 3).split (ch ' ') false,
        GoodNick sock (client.lacksNamesx sock) (client.lacksUHNames sock) sNick

end CClient

instance (client : CClient) (sock : CIRCSock) (m : CMessage) : Decidable (client.Adapts sock m) :=
  inferInstanceAs (Decidable (ite _ _ _))

/-! ## Prefixes -/

variable (client : CClient) (sock : CIRCSock) (s : CString) (m : CMessage) {sNick : CString} {c : UInt8}

theorem prefixes_append (sNick : CString) : prefixes sock sNick ++ bareNick sock sNick = sNick :=
  takeWhile_append_dropWhile

theorem mem_prefixes {sock : CIRCSock} (h : c ∈ prefixes sock sNick) :
    c ∈ sock.sPerms := by
  have hp := mem_takeWhile_imp h
  exact of_decide_eq_true hp

theorem head_bareNick {sock : CIRCSock} (h : (bareNick sock sNick).head? = some c) :
    c ∉ sock.sPerms := by
  have hp := head?_dropWhile_not (fun c => decide (c ∈ sock.sPerms)) sNick
  unfold bareNick at h
  rw [h] at hp
  simpa using hp

theorem firstPerm_eq (sNick : CString) :
    firstPerm sock sNick =
      if 2 ≤ (prefixes sock sNick).length ∧ bareNick sock sNick ≠ [] then
        (prefixes sock sNick).take 1 ++ bareNick sock sNick
      else sNick := by
  have hnone : (prefixes sock sNick).findIdx? (fun c => decide (c ∉ sock.sPerms)) = none := by
    rw [findIdx?_eq_none_iff]
    intro c hc
    simpa using mem_prefixes hc
  have hfind : findFirstNotOf sNick sock.sPerms =
      if bareNick sock sNick = [] then none else some (prefixes sock sNick).length := by
    have happend := prefixes_append sock sNick
    rw [findFirstNotOf, ← happend, findIdx?_append, hnone, happend]
    cases hbare : bareNick sock sNick with
    | nil => rfl
    | cons c s =>
      have hc : c ∉ sock.sPerms := head_bareNick (by rw [hbare]; rfl)
      simp [findIdx?_cons, hc]
  unfold firstPerm
  rw [hfind]
  by_cases hbare : bareNick sock sNick = []
  · rw [if_pos hbare, if_neg fun h => h.2 hbare]
  · rw [if_neg hbare]
    by_cases hlen : 2 ≤ (prefixes sock sNick).length
    · simp only [if_pos hlen, if_pos (And.intro hlen hbare)]
      have happend := prefixes_append sock sNick
      have htake : sNick.take 1 = (prefixes sock sNick).take 1 := calc
        sNick.take 1 = (prefixes sock sNick ++ bareNick sock sNick).take 1 := by rw [happend]
        _ = (prefixes sock sNick).take 1 := take_append_of_le_length (by omega)
      have hdrop : sNick.drop (prefixes sock sNick).length = bareNick sock sNick := calc
        sNick.drop (prefixes sock sNick).length
            = (prefixes sock sNick ++ bareNick sock sNick).drop (prefixes sock sNick).length := by rw [happend]
        _ = bareNick sock sNick := drop_left
      rw [htake, hdrop]
    · simp only [if_neg hlen]
      rw [if_neg fun h => hlen h.1]

theorem firstPerm_append {sock : CIRCSock} (hstuck : ¬(2 ≤ (prefixes sock sNick).length ∧ bareNick sock sNick = [])) :
    firstPerm sock sNick = (prefixes sock sNick).take 1 ++ bareNick sock sNick := by
  rw [firstPerm_eq]
  split_ifs with hcut
  · rfl
  · have hshort : (prefixes sock sNick).length ≤ 1 := by
      by_contra hlong
      by_cases hbare : bareNick sock sNick = []
      · exact hstuck ⟨by omega, hbare⟩
      · exact hcut ⟨by omega, hbare⟩
    rw [take_of_length_le hshort, prefixes_append]

/-! ## The nicks of a list -/

theorem token_bang :
    s.token 0 false (ch '!') false = (s.dropWhile (· = ch '!')).takeWhile (· ≠ ch '!') := by
  rw [token, if_neg Bool.false_ne_true, if_neg Bool.false_ne_true, skipTokens]

theorem bang_not_mem_token : ch '!' ∉ s.token 0 false (ch '!') false := by
  intro h
  have hne := mem_takeWhile_imp h
  exact of_decide_eq_true hne rfl

theorem token_append_iff (p s : CString) :
    (p ++ s).token 0 false (ch '!') false = p ++ s.takeWhile (· ≠ ch '!') ↔
      ch '!' ∉ p ∧ (p = [] → s.head? = some (ch '!') → ∀ c ∈ s, c = ch '!') := by
  by_cases hbang : ch '!' ∈ p
  · refine iff_of_false (fun h => ?_) (fun h => h.1 hbang)
    exact bang_not_mem_token _ (h ▸ mem_append_left _ hbang)
  cases p with
  | cons c p =>
    obtain ⟨hc, hp⟩ := not_or.1 (fun h => hbang (mem_cons.2 h))
    have hall : ∀ b ∈ c :: p, decide (b ≠ ch '!') = true := fun b hb => decide_eq_true fun h => hbang (h ▸ hb)
    have htoken : token (c :: p ++ s) 0 false (ch '!') false = c :: p ++ s.takeWhile (· ≠ ch '!') := by
      rw [token_bang, cons_append, dropWhile_cons_of_neg (by simpa using Ne.symm hc), ← cons_append,
        takeWhile_append_of_pos hall]
    exact iff_of_true htoken ⟨hbang, fun h => absurd h (cons_ne_nil _ _)⟩
  | nil =>
    rw [nil_append, nil_append, token_bang]
    cases s with
    | nil => simp
    | cons c s =>
      by_cases hc : c = ch '!'
      · subst hc
        have hempty : (ch '!' :: s).takeWhile (· ≠ ch '!') = [] := by simp
        rw [hempty]
        constructor
        · intro h
          refine ⟨hbang, fun _ _ => ?_⟩
          cases hdrop : (ch '!' :: s).dropWhile (· = ch '!') with
          | nil => exact fun c hc => of_decide_eq_true (dropWhile_eq_nil_iff.1 hdrop c hc)
          | cons b t =>
            have hb := head?_dropWhile_not (fun c => decide (c = ch '!')) (ch '!' :: s)
            rw [hdrop] at h hb
            rw [takeWhile_cons_of_pos (by simpa using hb)] at h
            exact absurd h (cons_ne_nil _ _)
        · rintro ⟨-, h⟩
          have hall := h rfl rfl
          have hdrop : (ch '!' :: s).dropWhile (· = ch '!') = [] :=
            dropWhile_eq_nil_iff.2 fun c hc => decide_eq_true (hall c hc)
          rw [hdrop]
          rfl
      · rw [dropWhile_cons_of_neg (by simpa using hc)]
        refine iff_of_true rfl ⟨hbang, fun _ h => ?_⟩
        exact absurd (Option.some_inj.1 h) hc

theorem bareNick_of_prefixes_nil {sock : CIRCSock} (h : prefixes sock sNick = []) :
    bareNick sock sNick = sNick := by
  have happend := prefixes_append sock sNick
  rwa [h, nil_append] at happend

theorem shownNick_eq (h0 : (0 : UInt8) ∉ sNick) :
    client.shownNick sock sNick =
      let s := if client.lacksNamesx sock then firstPerm sock sNick else sNick
      if client.lacksUHNames sock then s.token 0 false (ch '!') false else s := by
  have hsearch : (if client.lacksNamesx sock && sock.isPermChar (sNick.headD 0) then firstPerm sock sNick else sNick) =
      if client.lacksNamesx sock then firstPerm sock sNick else sNick := by
    cases client.lacksNamesx sock with
    | false => rfl
    | true =>
      rw [Bool.true_and, if_pos rfl]
      split_ifs with hperm
      · rfl
      · have hnil : prefixes sock sNick = [] := by
          cases sNick with
          | nil => rfl
          | cons c s =>
            have hc : c ≠ 0 := fun h => h0 (h ▸ mem_cons_self)
            refine takeWhile_cons_of_neg fun hmem => hperm ?_
            exact decide_eq_true ⟨hc, of_decide_eq_true hmem⟩
        rw [firstPerm_eq, if_neg]
        simp [hnil]
  unfold CClient.shownNick
  rw [hsearch]

theorem token_eq_take_one_iff {s : CString} (hlen : 2 ≤ s.length) :
    s.token 0 false (ch '!') false = s.take 1 ↔ s.head? ≠ some (ch '!') ∧ s[1]? = some (ch '!') := by
  obtain ⟨a, b, t, rfl⟩ : ∃ a b t, s = a :: b :: t := by
    match s, hlen with
    | a :: b :: t, _ => exact ⟨a, b, t, rfl⟩
  by_cases ha : a = ch '!'
  · refine iff_of_false (fun h => bang_not_mem_token (a :: b :: t) ?_) (fun h => h.1 (by rw [ha]; rfl))
    rw [h, ha]
    exact mem_cons_self
  · rw [token_bang, dropWhile_cons_of_neg (by simpa using ha), takeWhile_cons_of_pos (by simpa using ha)]
    by_cases hb : b = ch '!'
    · rw [takeWhile_cons_of_neg (by simpa using hb)]
      simp [ha, hb]
    · rw [takeWhile_cons_of_pos (by simpa using hb)]
      simp [hb]

theorem shownNick_eq_dueNick_iff (h0 : (0 : UInt8) ∉ sNick) :
    client.shownNick sock sNick = client.dueNick sock sNick ↔
      GoodNick sock (client.lacksNamesx sock) (client.lacksUHNames sock) sNick := by
  rw [shownNick_eq client sock h0, CClient.dueNick]
  simp only
  generalize client.lacksNamesx sock = bFirst
  generalize client.lacksUHNames sock = bCut
  have happend := prefixes_append sock sNick
  unfold GoodNick
  by_cases hstuck : bFirst = true ∧ 2 ≤ (prefixes sock sNick).length ∧ bareNick sock sNick = []
  · rw [if_pos hstuck]
    obtain ⟨rfl, hlen, hbare⟩ := hstuck
    have hself : firstPerm sock sNick = sNick := by rw [firstPerm_eq, if_neg fun h => h.2 hbare]
    rw [hbare, append_nil] at happend
    rw [if_pos rfl, if_pos rfl, hself, hbare, happend]
    rw [happend] at hlen
    cases bCut with
    | true =>
      rw [if_pos rfl, if_pos rfl, takeWhile_nil, append_nil, token_eq_take_one_iff hlen, eq_self, true_and]
    | false =>
      rw [if_neg Bool.false_ne_true, if_neg Bool.false_ne_true, append_nil]
      refine iff_of_false (fun h => ?_) (fun h => Bool.false_ne_true h.1)
      have hone := congrArg List.length h
      rw [length_take] at hone
      omega
  · rw [if_neg hstuck]
    set p := if bFirst = true then (prefixes sock sNick).take 1 else prefixes sock sNick with hp
    have hsearched : (if bFirst = true then firstPerm sock sNick else sNick) = p ++ bareNick sock sNick := by
      cases bFirst with
      | false => exact happend.symm
      | true =>
        rw [hp, if_pos rfl, if_pos rfl]
        exact firstPerm_append fun h => hstuck ⟨rfl, h⟩
    have hnil : p = [] ↔ prefixes sock sNick = [] := by
      rw [hp]
      split_ifs
      · simp
      · rfl
    rw [hsearched]
    cases bCut with
    | false => simp
    | true =>
      rw [if_pos rfl, if_pos rfl, token_append_iff]
      have hrest : (p = [] → (bareNick sock sNick).head? = some (ch '!') → ∀ c ∈ bareNick sock sNick, c = ch '!') ↔
          (prefixes sock sNick = [] → sNick.head? = some (ch '!') → ∀ c ∈ sNick, c = ch '!') := by
        rw [hnil]
        refine forall_congr' fun hempty => ?_
        rw [bareNick_of_prefixes_nil hempty]
      rw [hrest]
      exact ⟨fun h _ => h, fun h => h rfl⟩

/-! ## The flags of a 352 line -/

/-- what `whoReply` makes of the flags -/
def shownFlags (client : CClient) (sock : CIRCSock) (sFlags : CString) : CString :=
  if client.lacksNamesx sock && (1 < sFlags.length && sock.isPermChar (sFlags.getD 1 0)) then firstPerm sock sFlags
  else sFlags

theorem keepFirst_prefixes {sock : CIRCSock} {s : CString} (h : prefixes sock s ≠ []) :
    keepFirst sock s = (prefixes sock s).take 1 ++ (bareNick sock s).filter fun c => c ∉ sock.sPerms := by
  cases s with
  | nil => exact absurd rfl h
  | cons c s =>
    by_cases hc : c ∈ sock.sPerms
    · have hcons : prefixes sock (c :: s) = c :: prefixes sock s := takeWhile_cons_of_pos (by simpa using hc)
      have hbare : bareNick sock (c :: s) = bareNick sock s := dropWhile_cons_of_pos (by simpa using hc)
      have hmore : (prefixes sock s).filter (fun c => decide (c ∉ sock.sPerms)) = [] := by
        rw [filter_eq_nil_iff]
        intro b hb
        simpa using mem_prefixes hb
      have hfilter : s.filter (fun c => decide (c ∉ sock.sPerms)) =
          (bareNick sock s).filter fun c => decide (c ∉ sock.sPerms) := calc
        s.filter (fun c => decide (c ∉ sock.sPerms))
            = (prefixes sock s ++ bareNick sock s).filter (fun c => decide (c ∉ sock.sPerms)) := by rw [prefixes_append]
        _ = (bareNick sock s).filter fun c => decide (c ∉ sock.sPerms) := by
          rw [filter_append, hmore, nil_append]
      rw [keepFirst, if_pos hc, hcons, hbare, hfilter]
      rfl
    · exact absurd (takeWhile_cons_of_neg (by simpa using hc)) h

theorem keepFirst_eq_self_iff :
    keepFirst sock s = s ↔ (s.filter fun c => c ∈ sock.sPerms).length ≤ 1 := by
  induction s with
  | nil => simp [keepFirst]
  | cons c s ih =>
    rw [keepFirst]
    split_ifs with hc
    · rw [cons_inj_right, filter_cons_of_pos (by simpa using hc), length_cons, filter_eq_self]
      simp [length_eq_zero_iff, filter_eq_nil_iff]
    · rw [cons_inj_right, ih, filter_cons_of_neg (by simpa using hc)]

/-- **The flags of a 352 line** come out as they should exactly if they are good ones. -/
theorem shownFlags_eq_dueFlags_iff (sFlags : CString) :
    shownFlags client sock sFlags = client.dueFlags sock sFlags ↔
      (client.lacksNamesx sock = true → GoodFlags sock sFlags) := by
  unfold shownFlags CClient.dueFlags
  cases client.lacksNamesx sock with
  | false => simp
  | true =>
    rw [Bool.true_and, if_pos rfl]
    have happend := prefixes_append sock sFlags
    by_cases hcut : (1 < sFlags.length && sock.isPermChar (sFlags.getD 1 0)) = true ∧
        2 ≤ (prefixes sock sFlags).length ∧ bareNick sock sFlags ≠ []
    · obtain ⟨hperm, hlen, hbare⟩ := hcut
      have hne : prefixes sock sFlags ≠ [] := fun h => by rw [h] at hlen; exact absurd hlen (by decide)
      have hnul : sFlags.getD 1 0 ≠ 0 := (of_decide_eq_true (Bool.and_eq_true_iff.1 hperm).2).1
      have htwo : ¬(sFlags.filter fun c => c ∈ sock.sPerms).length ≤ 1 := by
        have hsub := (takeWhile_sublist (fun c => decide (c ∈ sock.sPerms)) (l := sFlags)).filter
          (fun c => decide (c ∈ sock.sPerms))
        have hall : (prefixes sock sFlags).filter (fun c => decide (c ∈ sock.sPerms)) = prefixes sock sFlags :=
          filter_eq_self.2 fun c hc => decide_eq_true (mem_prefixes hc)
        have hlength := hsub.length_le
        unfold prefixes at hall hlen
        rw [hall] at hlength
        omega
      rw [if_pos hperm, firstPerm_eq, if_pos ⟨hlen, hbare⟩, keepFirst_prefixes hne, append_cancel_left_eq, eq_comm,
        filter_eq_self]
      constructor
      · exact fun h _ => .inr ⟨hlen, hnul, hbare, fun c hc => of_decide_eq_true (h c hc)⟩
      · exact fun h c hc => decide_eq_true (((h rfl).resolve_left htwo).2.2.2 c hc)
    · have hsame : (if (1 < sFlags.length && sock.isPermChar (sFlags.getD 1 0)) = true then firstPerm sock sFlags
          else sFlags) = sFlags := by
        split_ifs with hperm
        · rw [firstPerm_eq, if_neg fun h => hcut ⟨hperm, h⟩]
        · rfl
      rw [hsame, eq_comm, keepFirst_eq_self_iff]
      constructor
      · exact fun h _ => .inl h
      · intro h
        refine (h rfl).resolve_right ?_
        rintro ⟨hlen, hnul, hbare, -⟩
        refine hcut ⟨?_, hlen, hbare⟩
        obtain ⟨a, b, t, hpre⟩ : ∃ a b t, prefixes sock sFlags = a :: b :: t := by
          match prefixes sock sFlags, hlen with
          | a :: b :: t, _ => exact ⟨a, b, t, rfl⟩
        have hb : b ∈ sock.sPerms := mem_prefixes (hpre ▸ mem_cons_of_mem _ mem_cons_self)
        rw [hpre] at happend
        rw [← happend] at hnul ⊢
        have hone : decide (1 < (a :: b :: t ++ bareNick sock sFlags).length) = true :=
          decide_eq_true (by rw [length_append, length_cons, length_cons]; omega)
        rw [hone, Bool.true_and]
        exact decide_eq_true ⟨hnul, hb⟩

/-! ## The line -/

theorem mem_of_mem_firstPerm {sock : CIRCSock} (h : c ∈ firstPerm sock sNick) : c ∈ sNick := by
  unfold firstPerm at h
  split at h
  · split_ifs at h
    · rcases mem_append.1 h with h | h
      · exact mem_of_mem_take h
      · exact mem_of_mem_drop h
    · exact h
  · exact h

theorem mem_of_mem_shownNick {client : CClient} {sock : CIRCSock} (h : c ∈ client.shownNick sock sNick) : c ∈ sNick := by
  unfold CClient.shownNick at h
  have hfirst : c ∈ (if client.lacksNamesx sock &&
    sock.isPermChar (sNick.headD 0) then firstPerm sock sNick else sNick) := by
    simp only at h
    split at h
    · rw [token_bang] at h
      exact (dropWhile_sublist _).subset ((takeWhile_sublist _).subset h)
    · exact h
  split_ifs at hfirst
  · exact mem_of_mem_firstPerm hfirst
  · exact hfirst

theorem mem_of_mem_dueNick {client : CClient} {sock : CIRCSock} (h : c ∈ client.dueNick sock sNick) : c ∈ sNick := by
  unfold CClient.dueNick at h
  rcases mem_append.1 h with h | h
  · split_ifs at h
    · exact (takeWhile_sublist _).subset (mem_of_mem_take h)
    · exact (takeWhile_sublist _).subset h
  · split_ifs at h
    · exact (dropWhile_sublist _).subset ((takeWhile_sublist _).subset h)
    · exact (dropWhile_sublist _).subset h

theorem join_map_eq_iff {ws : VCString} {f g : CString → CString} (hf : ∀ w ∈ ws, ch ' ' ∉ f w)
    (hg : ∀ w ∈ ws, ch ' ' ∉ g w) :
    (lit " ").join (ws.map f) = (lit " ").join (ws.map g) ↔ ∀ w ∈ ws, f w = g w := by
  rw [← map_inj_left]
  constructor
  · intro h
    cases ws with
    | nil => rfl
    | cons w ws =>
      have hsplit := congrArg (List.splitOn (ch ' ')) h
      have hsep : lit " " = [ch ' '] := rfl
      rw [hsep, join, join, splitOn_intercalate, splitOn_intercalate] at hsplit
      · exact hsplit
      · exact forall_mem_map.2 hg
      · exact cons_ne_nil _ _
      · exact forall_mem_map.2 hf
      · exact cons_ne_nil _ _
  · intro h
    rw [h]

theorem nickLoop_eq {ws : VCString} (h : ∀ w ∈ ws, w ≠ []) :
    client.nickLoop sock ws = ws.map (client.shownNick sock) := by
  induction ws with
  | nil => rfl
  | cons w ws ih =>
    rw [CClient.nickLoop, if_neg (h w mem_cons_self), ih fun v hv => h v (mem_cons_of_mem _ hv)]
    rfl

theorem setParam_eq {uIdx : UInt32} (hone : uIdx ≠ 1) (hlast : uIdx.toNat + 1 < 2 ^ 32) (s : CString) :
    ∃ v, m.setParam uIdx s = some { m with vsParams := v } ∧ v.length = max m.vsParams.length (uIdx.toNat + 1) ∧
      (uIdx.toNat < m.vsParams.length → v = m.vsParams.set uIdx.toNat s) := by
  obtain ⟨m', hm', -, -, hlen, -⟩ := m.setParam_spec uIdx s hlast
  have hset := hm'
  unfold CMessage.setParam at hset
  simp only [hone, decide_false, Bool.false_and, Bool.false_eq_true, if_false] at hset
  split_ifs at hset with hgrow hpast
  · rw [Option.some_inj] at hset
    refine ⟨m'.vsParams, by rw [hm', ← hset], hlen, fun hlt => ?_⟩
    omega
  · rw [Option.some_inj] at hset
    refine ⟨m'.vsParams, by rw [hm', ← hset], hlen, fun _ => ?_⟩
    rw [← hset]

theorem modify_eq_iff {v : VCString} {i : ℕ} {f g : CString → CString} (hnil : f [] = g []) :
    v.modify i f = v.modify i g ↔ f (v.getD i []) = g (v.getD i []) := by
  rw [modify_eq_set, modify_eq_set, getD_eq_getElem?_getD]
  by_cases h : i < v.length
  · refine ⟨fun hset => ?_, fun hsame => congrArg (v.set i) hsame⟩
    have hget := congrArg (fun v : VCString => v[i]?) hset
    simp only [getElem?_set_self h, Option.some_inj] at hget
    exact hget
  · have hle := not_lt.1 h
    rw [set_eq_of_length_le hle, set_eq_of_length_le hle, getElem?_eq_none hle]
    exact iff_of_true rfl hnil

theorem set_getD_self (v : VCString) (i : ℕ) : v.set i (v.getD i []) = v := by
  by_cases h : i < v.length
  · rw [getD_eq_getElem?_getD, getElem?_eq_getElem h, Option.getD_some, set_getElem_self h]
  · exact set_eq_of_length_le (not_lt.1 h)

theorem vsParams_inj (v w : VCString) :
    ({ m with vsParams := v } : CMessage) = { m with vsParams := w } ↔ v = w :=
  ⟨fun h => congrArg CMessage.vsParams h, fun h => by rw [h]⟩

theorem whoReply_eq :
    client.whoReply sock m = some { m with vsParams := m.vsParams.modify 6 (shownFlags client sock) } := by
  have hmodify : m.vsParams.modify 6 (shownFlags client sock) =
    m.vsParams.set 6 (shownFlags client sock (m.getParam 6)) :=
    modify_eq_set _ _ _
  have hsame : m.vsParams.set 6 (m.getParam 6) = m.vsParams := set_getD_self m.vsParams 6
  rw [hmodify]
  unfold CClient.whoReply shownFlags
  simp only
  cases client.lacksNamesx sock with
  | false => rw [Bool.false_and, if_neg Bool.false_ne_true, if_neg Bool.false_ne_true, hsame]
  | true =>
    rw [Bool.true_and, if_pos rfl]
    split_ifs with hperm
    · have hlong : 6 < m.vsParams.length := by
        by_contra hle
        have hsix : m.vsParams[6]? = none := getElem?_eq_none (not_lt.1 hle)
        have hempty : m.getParam 6 = [] := by
          rw [CMessage.getParam, getD_eq_getElem?_getD]
          exact congrArg (Option.getD · []) hsix
        rw [hempty] at hperm
        exact absurd hperm (by simp)
      obtain ⟨v, hv, -, hset⟩ := @setParam_eq m 6 (by decide) (by decide) (firstPerm sock (m.getParam 6))
      rw [hv, hset hlong]
      rfl
    · rw [hsame]

theorem names_eq (hlacks : client.lacksNamesx sock = true ∨ client.lacksUHNames sock = true) :
    ∃ v, client.names sock m = some { m with vsParams := v } ∧ v.length = max m.vsParams.length 4 ∧
      (4 ≤ m.vsParams.length → v = m.vsParams.modify 3 fun sNicks =>
        (lit " ").join ((sNicks.split (ch ' ') false).map (client.shownNick sock))) := by
  have hwords : ∀ w ∈ (m.getParam 3).split (ch ' ') false, w ≠ [] := fun w hw => (mem_split hw).2.2 rfl
  have hloop := nickLoop_eq client sock hwords
  unfold CClient.names
  rw [if_pos (Bool.or_eq_true_iff.2 hlacks), hloop]
  obtain ⟨v, hv, hlen, hset⟩ := @setParam_eq m 3 (by decide) (by decide)
    ((lit " ").join (((m.getParam 3).split (ch ' ') false).map (client.shownNick sock)))
  refine ⟨v, hv, hlen, fun hfour => ?_⟩
  rw [hset hfour, modify_eq_set]
  rfl

theorem names_due_iff (hlacks : client.lacksNamesx sock = true ∨ client.lacksUHNames sock = true) :
    client.names sock m = some { m with
        vsParams := m.vsParams.modify 3 (fun sNicks =>
          (lit " ").join ((sNicks.split (ch ' ') false).map (client.dueNick sock))) } ↔
      4 ≤ m.vsParams.length ∧
        ∀ sNick ∈ (m.getParam 3).split (ch ' ') false,
          GoodNick sock (client.lacksNamesx sock) (client.lacksUHNames sock) sNick := by
  obtain ⟨v, hnames, hlen, hv⟩ := names_eq client sock m hlacks
  rw [hnames, Option.some_inj, vsParams_inj]
  by_cases hfour : 4 ≤ m.vsParams.length
  · have hwords : ∀ w ∈ (m.getParam 3).split (ch ' ') false, ch ' ' ∉ w ∧ (0 : UInt8) ∉ w := fun w hw =>
      ⟨(mem_split hw).1, (mem_split hw).2.1⟩
    have hshown : ∀ w ∈ (m.getParam 3).split (ch ' ') false, ch ' ' ∉ client.shownNick sock w := fun w hw hsp =>
      (hwords w hw).1 (mem_of_mem_shownNick hsp)
    have hdue : ∀ w ∈ (m.getParam 3).split (ch ' ') false, ch ' ' ∉ client.dueNick sock w := fun w hw hsp =>
      (hwords w hw).1 (mem_of_mem_dueNick hsp)
    have hgood : (∀ w ∈ (m.getParam 3).split (ch ' ') false, client.shownNick sock w = client.dueNick sock w) ↔
        ∀ w ∈ (m.getParam 3).split (ch ' ') false,
          GoodNick sock (client.lacksNamesx sock) (client.lacksUHNames sock) w :=
      forall₂_congr fun w hw => shownNick_eq_dueNick_iff client sock (hwords w hw).2
    rw [hv hfour, ← hgood, ← join_map_eq_iff hshown hdue, and_iff_right hfour]
    exact modify_eq_iff rfl
  · refine iff_of_false (fun h => ?_) (fun h => hfour h.1)
    rw [h, length_modify] at hlen
    omega

theorem adapt_numeric {m : CMessage} (hnumeric : m.eType = .Numeric) :
    ∃ v, client.adapt sock m = some { m with vsParams := v } := by
  unfold CClient.adapt
  rw [if_pos hnumeric]
  split_ifs
  · exact ⟨_, whoReply_eq client sock m⟩
  · by_cases hlacks : client.lacksNamesx sock = true ∨ client.lacksUHNames sock = true
    · obtain ⟨v, hv, -⟩ := names_eq client sock m hlacks
      exact ⟨v, hv⟩
    · rw [CClient.names, if_neg fun h => hlacks (Bool.or_eq_true_iff.1 h)]
      exact ⟨_, rfl⟩
  · exact ⟨_, rfl⟩

/-- **A 352 or 353 line for a client** is sent as it is due exactly if it is one of those that come out right. -/
theorem putClient_due_iff (client : CClient) (utils : CUtils) (sock : CIRCSock) (m : CMessage)
    (hnumeric : m.eType = .Numeric)
    (hcode : getCode m = 352 ∨ getCode m = 353) :
    client.putClient utils (some sock) m = some (client.due utils sock m) ↔ client.Adapts sock m := by
  have htakes : client.takes m = true := by
    unfold CClient.takes
    rw [hnumeric]
  have hput : client.putClient utils (some sock) m = some (client.due utils sock m) ↔
      client.adapt sock m = some { m with vsParams := client.dueParams sock m } := by
    obtain ⟨v, hv⟩ := adapt_numeric client sock hnumeric
    unfold CClient.putClient CClient.due
    rw [if_pos htakes]
    simp only
    rw [hv, Option.map_some, Option.some_inj, Option.some_inj]
    -- the tags are made from those of the message, whatever its parameters
    exact (vsParams_inj { m with mssTags := client.tagsFor utils m } _ _).trans (vsParams_inj m _ _).symm
  rw [hput]
  unfold CClient.adapt CClient.dueParams CClient.Adapts
  rw [if_pos hnumeric]
  by_cases hwho : getCode m = 352
  · have hnil : shownFlags client sock [] = client.dueFlags sock [] := by
      unfold shownFlags CClient.dueFlags
      cases client.lacksNamesx sock with
      | false => rfl
      | true => rfl
    rw [if_pos hwho, if_pos hwho, if_pos hwho, whoReply_eq, Option.some_inj, vsParams_inj, modify_eq_iff hnil,
      ← shownFlags_eq_dueFlags_iff]
    rfl
  · rw [if_neg hwho, if_neg hwho, if_neg hwho, if_pos (hcode.resolve_left hwho)]
    by_cases hlacks : client.lacksNamesx sock = true ∨ client.lacksUHNames sock = true
    · rw [if_pos (Bool.or_eq_true_iff.2 hlacks), names_due_iff client sock m hlacks]
      exact ⟨fun h _ => h, fun h => h hlacks⟩
    · have hneither : ¬(client.lacksNamesx sock || client.lacksUHNames sock) = true := fun h =>
        hlacks (Bool.or_eq_true_iff.1 h)
      rw [if_neg hneither, CClient.names, if_neg hneither]
      exact iff_of_true rfl fun h => absurd h hlacks

/-! ## A server with both features and a client with neither -/

def sampleSock : CIRCSock :=
  { ServerTables.initial (lit "#") with sPerms := lit "~&@%+", bNamesx := true, bUHNames := true,
                                        bExtendedJoin := false }

def sampleClient : CClient := ⟨lit "me", false, false, false, false, false, false, false, false, .empty⟩

def numeric (sCommand : CString) (vsParams : VCString) : CMessage :=
  ⟨⟨lit "s", [], []⟩, sCommand, vsParams, .empty, ⟨0, 0⟩, .Numeric, true⟩

theorem putClient_due_names :
    sampleClient.putClient CMessage.stoppedClock (some sampleSock)
        (numeric (lit "353") [lit "me", lit "=", lit "#c", lit "~&@+aji!u@h &@Attila!u@h Argure"]) =
      some (sampleClient.due CMessage.stoppedClock sampleSock
        (numeric (lit "353") [lit "me", lit "=", lit "#c", lit "~&@+aji!u@h &@Attila!u@h Argure"])) :=
  (putClient_due_iff sampleClient CMessage.stoppedClock sampleSock _ rfl (by decide)).2 (by decide)

example : sampleClient.dueParams sampleSock
    (numeric (lit "353") [lit "me", lit "=", lit "#c", lit "~&@+aji!u@h &@Attila!u@h Argure"]) =
      [lit "me", lit "=", lit "#c", lit "~aji &Attila Argure"] := by decide

/-- an operator with voice keeps both prefixes in a 352 line -/
theorem putClient_who_fails :
    ¬ ∀ (client : CClient) (utils : CUtils) (sock : CIRCSock) (m : CMessage), m.eType = .Numeric →
      getCode m = 352 ∨ getCode m = 353 → client.putClient utils (some sock) m = some (client.due utils sock m) := by
  intro h
  have hwho := h sampleClient CMessage.stoppedClock sampleSock
    (numeric (lit "352") [lit "me", lit "#c", lit "u", lit "h", lit "s", lit "n", lit "H@+", lit "0 r"]) rfl
    (by decide)
  have hkept : sampleClient.putClient CMessage.stoppedClock (some sampleSock)
        (numeric (lit "352") [lit "me", lit "#c", lit "u", lit "h", lit "s", lit "n", lit "H@+", lit "0 r"]) ≠
      some (sampleClient.due CMessage.stoppedClock sampleSock
        (numeric (lit "352") [lit "me", lit "#c", lit "u", lit "h", lit "s", lit "n", lit "H@+", lit "0 r"])) := by
    decide
  exact hkept hwho

end ZNC.PrefixDowngrade
