/-
The NAMES list that a client gets when it is attached to a channel: `AttachUser` of `src/Chan.cpp`.

ZNC puts the nicks of its own table together, one line after the other, for each client in the form that it has asked
for. A nick goes on the line in hand, and then the line is sent if it has 490 bytes or more; so a long entry behind a
line that is almost full makes a line that is too long.

Model: the clients of the network are known by their places. What is put to a client goes on to `CClient::PutClient`
(`ZNC.PrefixDowngrade`). A channel that has lost its server has the permissions "@+". The messages of the buffer that
follow (`SendBuffer`) are in `ZNC.Playback`.

Results:
- `names_groups`: the lines hold the nicks, each once and in order;
- `names_short`, `exists_long`: entries that are short enough, and names that are not;
- `attachUser_iff`: the bound on the entries with which all lines are short enough;
- `attachUser_long`: six users.
-/
import ZNC.Chan
import ZNC.NetworkConfig
import ZNC.Lib.Journal

namespace ZNC.NamesReplay

open CString Journal NetworkClone List

/-! ## Model -/

/-- `CClient`: what it has asked for, and what was put to it, oldest first -/
structure CClient where
  bNamesx : Bool
  bUHNames : Bool
  vsSent : VCString
deriving DecidableEq, Repr

def CClient.puts (client : CClient) (vs : VCString) : CClient := { client with vsSent := client.vsSent ++ vs }

/-- `CIRCNetwork`; `ircNick` is the nick of `GetIRCNick()` -/
structure CIRCNetwork where
  sIRCServer : CString
  ircNick : ZNC.CNick
  vClients : List CClient

namespace CIRCNetwork

def puts (net : CIRCNetwork) (i : ℕ) (vs : VCString) : CIRCNetwork :=
  { net with vClients := net.vClients.modify i (·.puts vs) }

def putUser (net : CIRCNetwork) (sLine : CString) (pClient : Option ℕ) : CIRCNetwork :=
  match pClient with
  | none => { net with vClients := net.vClients.map (·.puts [sLine]) }
  | some i => net.puts i [sLine]

end CIRCNetwork

/-- `CChan` with its topic -/
structure CChan extends Chan.CChan where
  sName : CString
  sTopic : CString
  sTopicOwner : CString
  ulTopicDate : ℕ
  bDetached : Bool

def CChan.getModeForNames (c : CChan) : CString :=
  let sMode := c.mcsModes.keys.foldl
    (fun sMode cMode => if cMode = ch 's' then lit "@" else if cMode = ch 'p' ∧ sMode = [] then lit "*" else sMode) []
  if sMode = [] then lit "=" else sMode

/-- `sPerm + sNick` for one nick of the table -/
def entry (t : ServerTables) (client : CClient) (a : CString × Chan.CNick) : CString :=
  let c := a.2.getPermChar t
  let sPerm := if client.bNamesx then a.2.getPermStr t else if c ≠ 0 then [c] else []
  let sNick := if client.bUHNames ∧ a.2.sIdent ≠ [] ∧ a.2.sHost ≠ []
    then a.1 ++ lit "!" ++ a.2.sIdent ++ lit "@" ++ a.2.sHost else a.1
  sPerm ++ sNick

/-- the loop over the nicks, for the client at `uThis` -/
def nickLoop (t : ServerTables) (client : CClient) (uThis : ℕ) (sPre : CString) :
    List (CString × Chan.CNick) → CIRCNetwork → CString → CIRCNetwork × CString
  | [], net, sLine => (net, sLine)
  | a :: nicks, net, sLine =>
    let sLine := sLine ++ entry t client a
    if 490 ≤ sLine.length ∨ nicks = [] then nickLoop t client uThis sPre nicks (net.putUser sLine (some uThis)) sPre
    else nickLoop t client uThis sPre nicks net (sLine ++ lit " ")

/-- the loop over the clients; with a client given, only its first turn -/
def clientLoop (t : ServerTables) (c : CChan) (sPre : CString) (pClient : Option ℕ) :
    List ℕ → CIRCNetwork → CString → CIRCNetwork
  | [], net, _ => net
  | i :: is, net, sLine =>
    let uThis := pClient.getD i
    let (net, sLine) := match net.vClients[uThis]? with
      | some client => nickLoop t client uThis sPre c.msNicks.entries net sLine
      | none => (net, sLine)
    if pClient.isSome then net else clientLoop t c sPre pClient is net sLine

/-- the start of a numeric of the server -/
def numeric (net : CIRCNetwork) (sCode : CString) : CString :=
  lit ":" ++ net.sIRCServer ++ lit " " ++ sCode ++ lit " " ++ net.ircNick.sNick ++ lit " "

/-- `sPre` -/
def namesPrefix (net : CIRCNetwork) (c : CChan) : CString :=
  numeric net (lit "353") ++ c.getModeForNames ++ lit " " ++ c.sName ++ lit " :"

def namesEnd (net : CIRCNetwork) (c : CChan) : CString :=
  numeric net (lit "366") ++ c.sName ++ lit " :End of /NAMES list."

def attachUser (t : ServerTables) (net : CIRCNetwork) (c : CChan) (pClient : Option ℕ) : CIRCNetwork × CChan :=
  let net := net.putUser (lit ":" ++ net.ircNick.getNickMask ++ lit " JOIN :" ++ c.sName) pClient
  let net := if c.sTopic ≠ [] then
      let net := net.putUser (numeric net (lit "332") ++ c.sName ++ lit " :" ++ c.sTopic) pClient
      if c.sTopicOwner ≠ [] then
        net.putUser (numeric net (lit "333") ++ c.sName ++ lit " " ++ c.sTopicOwner ++ lit " " ++ uintText c.ulTopicDate)
          pClient
      else net
    else net
  let sPre := namesPrefix net c
  let net := clientLoop t c sPre pClient (List.range net.vClients.length) net sPre
  let net := net.putUser (namesEnd net c) pClient
  (net, { c with bDetached := false })

/-! ## Statements -/

/-- `PutUser` reaches the client -/
def Addressed (pClient : Option ℕ) (i : ℕ) : Prop := ∀ j ∈ pClient, j = i

instance (pClient : Option ℕ) (i : ℕ) : Decidable (Addressed pClient i) :=
  inferInstanceAs (Decidable (∀ j ∈ pClient, j = i))

/-- a nick as a client has asked for it: with multi-prefix all its permissions, or else the highest; with
userhost-in-names also user and host, where they are known -/
def shown (t : ServerTables) (client : CClient) (a : CString × Chan.CNick) : CString :=
  let perms := a.2.getPermStr t
  (if client.bNamesx then perms else perms.take 1) ++
    (if client.bUHNames ∧ a.2.sIdent ≠ [] ∧ a.2.sHost ≠ [] then a.1 ++ lit "!" ++ a.2.sIdent ++ lit "@" ++ a.2.sHost
      else a.1)

def entries (t : ServerTables) (c : CChan) (client : CClient) : VCString := c.msNicks.entries.map (shown t client)

/-- the lines in front of the list -/
def greeting (net : CIRCNetwork) (c : CChan) : VCString :=
  (lit ":" ++ net.ircNick.getNickMask ++ lit " JOIN :" ++ c.sName) ::
    if c.sTopic = [] then []
    else (numeric net (lit "332") ++ c.sName ++ lit " :" ++ c.sTopic) ::
      if c.sTopicOwner = [] then []
      else [numeric net (lit "333") ++ c.sName ++ lit " " ++ c.sTopicOwner ++ lit " " ++ uintText c.ulTopicDate]

/-- what a client gets: lines with the nicks of the table, each once, and one end; the lines are short if the entries
are -/
structure Listed (t : ServerTables) (net : CIRCNetwork) (c : CChan) (client client' : CClient)
    (groups : List VCString) : Prop where
  sent : client'.vsSent = client.vsSent ++ (greeting net c ++
    groups.map (fun g => namesPrefix net c ++ join (lit " ") g) ++ [namesEnd net c])
  once : groups.flatten = entries t c client
  filled : [] ∉ groups
  short : (∀ s ∈ entries t c client, s.length ≤ 100) →
    ∀ g ∈ groups, (namesPrefix net c ++ join (lit " ") g).length ≤ 510

/-- every client that is addressed gets its list, and the others nothing -/
def Replayed (t : ServerTables) (net : CIRCNetwork) (c : CChan) (pClient : Option ℕ) : Prop :=
  ∀ i client, net.vClients[i]? = some client → ∃ client', (attachUser t net c pClient).1.vClients[i]? = some client' ∧
    (Addressed pClient i → ∃ groups, Listed t net c client client' groups) ∧ (¬Addressed pClient i → client' = client)

/-! ## Entries -/

variable (t : ServerTables) (c : CChan) (sPre : CString) (net : CIRCNetwork) (pClient : Option ℕ) (sLine : CString)

theorem entry_eq (client : CClient) (a : CString × Chan.CNick) :
    entry t client a = shown t client a := by
  have hperm : (if a.2.getPermChar t ≠ 0 then [a.2.getPermChar t] else []) = (a.2.getPermStr t).take 1 := by
    unfold Chan.CNick.getPermChar Chan.CNick.getPermStr
    induction a.2.knownPerms t with
    | nil => rfl
    | cons c perms ih =>
      by_cases hc : a.2.hasPerm c = true
      · have hne : c ≠ 0 := (of_decide_eq_true hc).1
        simp [hc, hne]
      · rw [find?_cons_of_neg hc, filter_cons_of_neg hc]
        exact ih
  unfold entry shown
  simp only [hperm]

/-! ## Lines -/

/-- the lines that the loop sends -/
def names (sPre : CString) : CString → VCString → VCString
  | _, [] => []
  | sLine, s :: ss =>
    if 490 ≤ (sLine ++ s).length ∨ ss = [] then (sLine ++ s) :: names sPre sPre ss
    else names sPre (sLine ++ s ++ lit " ") ss

theorem join_snoc (g : VCString) (s : CString) : join (lit " ") (g ++ [s]) = g.flatMap (· ++ lit " ") ++ s := by
  induction g with
  | nil => simp [join]
  | cons a g ih =>
    calc join (lit " ") (a :: g ++ [s]) = a ++ lit " " ++ join (lit " ") (g ++ [s]) := by
          cases g <;> simp [join_cons]
      _ = _ := by rw [ih, flatMap_cons, append_assoc, append_assoc, append_assoc]

theorem names_groups (ss g : VCString) (h : ss = [] → g = []) :
    ∃ groups : List VCString, names sPre (sPre ++ g.flatMap (· ++ lit " ")) ss =
      groups.map (fun g => sPre ++ join (lit " ") g) ∧ groups.flatten = g ++ ss ∧ [] ∉ groups := by
  induction ss generalizing g with
  | nil => exact ⟨[], rfl, by simp [h rfl], not_mem_nil⟩
  | cons s ss ih =>
    have hline : sPre ++ g.flatMap (· ++ lit " ") ++ s = sPre ++ join (lit " ") (g ++ [s]) := by
      rw [join_snoc, append_assoc]
    by_cases hfull : 490 ≤ (sPre ++ g.flatMap (· ++ lit " ") ++ s).length ∨ ss = []
    · obtain ⟨groups, hnames, hflat, hne⟩ := ih [] fun _ => rfl
      rw [flatMap_nil, append_nil] at hnames
      refine ⟨(g ++ [s]) :: groups, ?_, ?_, ?_⟩
      · rw [names, if_pos hfull, hnames, hline, map_cons]
      · rw [flatten_cons, hflat]
        simp
      · simpa using hne
    · obtain ⟨groups, hnames, hflat, hne⟩ := ih (g ++ [s]) fun hss => absurd (.inr hss) hfull
      refine ⟨groups, ?_, by simpa using hflat, hne⟩
      rw [names, if_neg hfull, ← hnames, flatMap_append, flatMap_singleton]
      simp only [append_assoc]

/-- the line in hand behind one more entry -/
def nextLine (sPre sLine s : CString) : CString :=
  if 490 ≤ (sLine ++ s).length then sPre else sLine ++ s ++ lit " "

/-- **Short lines**, said of each entry that goes on a line. -/
theorem short_iff (ss : VCString) : (∀ l ∈ names sPre sLine ss, l.length ≤ 510) ↔
    Along (nextLine sPre) (fun _ sLine s => sLine.length + s.length ≤ 510) ss sLine := by
  induction ss generalizing sLine with
  | nil => simp [names, Along]
  | cons s ss ih =>
    rw [names, Along, nextLine, ← length_append]
    by_cases hfull : 490 ≤ (sLine ++ s).length
    · rw [if_pos (.inl hfull), if_pos hfull, forall_mem_cons, ih]
    · have hshort : (sLine ++ s).length ≤ 510 := by omega
      rw [if_neg hfull]
      by_cases hlast : ss = []
      · rw [if_pos (.inr hlast), hlast]
        simp [names, Along]
      · rw [if_neg (not_or.2 ⟨hfull, hlast⟩), ih]
        exact (and_iff_right hshort).symm

/-! ## What each client gets -/

theorem CClient.puts_puts (client : CClient) (vs ws : VCString) : (client.puts vs).puts ws = client.puts (vs ++ ws) := by
  simp [CClient.puts]

theorem puts_getElem? (i j : ℕ) (vs : VCString) :
    (net.puts i vs).vClients[j]? = net.vClients[j]?.map fun client => if i = j then client.puts vs else client := by
  rw [CIRCNetwork.puts, getElem?_modify]
  by_cases h : i = j
  · simp only [if_pos h]
    rfl
  · simp only [if_neg h]
    rfl

theorem putUser_getElem? (pClient : Option ℕ) (j : ℕ) :
    (net.putUser sLine pClient).vClients[j]? =
      net.vClients[j]?.map fun client => if Addressed pClient j then client.puts [sLine] else client := by
  cases pClient with
  | none => simp [CIRCNetwork.putUser, Addressed]
  | some i =>
    rw [CIRCNetwork.putUser, puts_getElem?]
    simp only [Addressed, Option.mem_some_iff, forall_eq']

theorem puts_nil (i : ℕ) : net.puts i [] = net := by
  have hsame : (fun client : CClient => client.puts []) = id := by
    funext client
    simp [CClient.puts]
  rw [CIRCNetwork.puts, hsame, modify_id]

theorem puts_puts (i : ℕ) (vs ws : VCString) :
    (net.puts i vs).puts i ws = net.puts i (vs ++ ws) := by
  have hboth : (fun client : CClient => client.puts ws) ∘ (fun client : CClient => client.puts vs) =
      fun client : CClient => client.puts (vs ++ ws) := by
    funext client
    exact client.puts_puts vs ws
  simp only [CIRCNetwork.puts, modify_modify_eq, hboth]

/-- **The loop over the nicks** sends the lines of one client, and leaves the line as it found it. -/
theorem nickLoop_eq (client : CClient) (uThis : ℕ) (sPre : CString) (nicks : List (CString × Chan.CNick))
    (net : CIRCNetwork) (sLine : CString) (h : nicks = [] → sLine = sPre) :
    nickLoop t client uThis sPre nicks net sLine =
      (net.puts uThis (names sPre sLine (nicks.map (shown t client))), sPre) := by
  induction nicks generalizing net sLine with
  | nil => rw [nickLoop, h rfl, map_nil, names, puts_nil]
  | cons a nicks ih =>
    rw [nickLoop, map_cons, names, entry_eq]
    simp only [map_eq_nil_iff]
    by_cases hfull : 490 ≤ (sLine ++ shown t client a).length ∨ nicks = []
    · rw [if_pos hfull, if_pos hfull, ih _ sPre fun _ => rfl, CIRCNetwork.putUser, puts_puts, singleton_append]
    · rw [if_neg hfull, if_neg hfull, ih _ _ fun hnil => absurd (.inr hnil) hfull]

/-- the lines for a client, in the loop -/
def lines (t : ServerTables) (c : CChan) (sPre : CString) (client : CClient) : VCString :=
  names sPre sPre (entries t c client)

theorem turn_eq (uThis : ℕ) :
    ∃ net', (match net.vClients[uThis]? with
      | some client => nickLoop t client uThis sPre c.msNicks.entries net sPre
      | none => (net, sPre)) = (net', sPre) ∧ (∀ sCode, numeric net' sCode = numeric net sCode) ∧
        ∀ j : ℕ, net'.vClients[j]? =
          net.vClients[j]?.map fun client => if uThis = j then client.puts (lines t c sPre client) else client := by
  cases hthis : net.vClients[uThis]? with
  | none =>
    refine ⟨net, rfl, fun _ => rfl, fun j => ?_⟩
    by_cases hj : uThis = j
    · rw [← hj, hthis]
      rfl
    · simp [hj]
  | some client =>
    refine ⟨_, nickLoop_eq t client uThis sPre _ net sPre fun _ => rfl, fun _ => rfl, fun j => ?_⟩
    rw [puts_getElem?]
    by_cases hj : uThis = j
    · rw [← hj, hthis]
      simp [lines, entries]
    · simp [hj]

theorem clientLoop_all (t : ServerTables) (c : CChan) (sPre : CString) (is : List ℕ) (hnodup : is.Nodup)
    (net : CIRCNetwork) (j : ℕ) : (clientLoop t c sPre none is net sPre).vClients[j]? =
      net.vClients[j]?.map fun client => if j ∈ is then client.puts (lines t c sPre client) else client := by
  induction is generalizing net with
  | nil => simp [clientLoop]
  | cons i is ih =>
    obtain ⟨net', hturn, -, hnet⟩ := turn_eq t c sPre net i
    rw [nodup_cons] at hnodup
    calc (clientLoop t c sPre none (i :: is) net sPre).vClients[j]?
        = (clientLoop t c sPre none is net' sPre).vClients[j]? := by
          simp only [clientLoop, Option.getD_none, hturn, Option.isSome_none, Bool.false_eq_true, if_false]
      _ = (net.vClients[j]?.map fun client => if i = j then client.puts (lines t c sPre client) else client).map
            fun client => if j ∈ is then client.puts (lines t c sPre client) else client := by
          rw [ih hnodup.2, hnet]
      _ = _ := by
          rw [Option.map_map]
          congr 1
          funext client
          by_cases hj : i = j
          · subst hj
            simp [hnodup.1]
          · simp [hj, Ne.symm hj]

/-- **The loop over the clients.** -/
theorem clientLoop_getElem? (t : ServerTables) (c : CChan) (sPre : CString) (pClient : Option ℕ) (net : CIRCNetwork)
    (j : ℕ) : (clientLoop t c sPre pClient (List.range net.vClients.length) net sPre).vClients[j]? =
      net.vClients[j]?.map fun client =>
        if Addressed pClient j then client.puts (lines t c sPre client) else client := by
  cases pClient with
  | none =>
    rw [clientLoop_all t c sPre _ nodup_range]
    by_cases hj : j < net.vClients.length
    · simp [Addressed, hj]
    · rw [getElem?_eq_none (not_lt.1 hj)]
      rfl
  | some p =>
    simp only [Addressed, Option.mem_some_iff, forall_eq']
    cases hclients : net.vClients with
    | nil => simp [clientLoop, hclients]
    | cons client clients =>
      obtain ⟨net', hturn, -, hnet⟩ := turn_eq t c sPre net p
      rw [← hclients, ← hnet j, hclients, length_cons, range_succ_eq_map, clientLoop]
      simp only [Option.getD_some, hturn, Option.isSome_some, if_true]

theorem clientLoop_numeric (is : List ℕ) (net : CIRCNetwork) (sCode : CString) :
    numeric (clientLoop t c sPre pClient is net sPre) sCode = numeric net sCode := by
  induction is generalizing net with
  | nil => rfl
  | cons i is ih =>
    obtain ⟨net', hturn, hnet, -⟩ := turn_eq t c sPre net (pClient.getD i)
    simp only [clientLoop, hturn]
    split
    · exact hnet sCode
    · rw [ih, hnet]

theorem putUser_numeric (pClient : Option ℕ) (sCode : CString) :
    numeric (net.putUser sLine pClient) sCode = numeric net sCode := by
  cases pClient <;> rfl

/-- several lines to the same clients -/
def putAll (pClient : Option ℕ) (net : CIRCNetwork) (vs : VCString) : CIRCNetwork :=
  vs.foldl (fun net sLine => net.putUser sLine pClient) net

theorem putAll_numeric (net : CIRCNetwork) (vs : VCString) (sCode : CString) :
    numeric (putAll pClient net vs) sCode = numeric net sCode := by
  induction vs generalizing net with
  | nil => rfl
  | cons sLine vs ih => exact (ih _).trans (putUser_numeric net sLine pClient sCode)

theorem putAll_getElem? (net : CIRCNetwork) (vs : VCString) (j : ℕ) :
    (putAll pClient net vs).vClients[j]? =
      net.vClients[j]?.map fun client => if Addressed pClient j then client.puts vs else client := by
  induction vs generalizing net with
  | nil => simp [putAll, CClient.puts]
  | cons sLine vs ih =>
    have hrest := ih (net.putUser sLine pClient)
    rw [putUser_getElem?, Option.map_map] at hrest
    refine hrest.trans (congrArg (net.vClients[j]?.map ·) (funext fun client => ?_))
    by_cases hj : Addressed pClient j
    · simp only [Function.comp_apply, if_pos hj, CClient.puts_puts, singleton_append]
    · simp only [Function.comp_apply, if_neg hj]

theorem attachUser_eq (c : CChan) (pClient : Option ℕ) :
    (attachUser t net c pClient).1 =
      let net' := putAll pClient net (greeting net c)
      (clientLoop t c (namesPrefix net c) pClient (List.range net'.vClients.length) net' (namesPrefix net c)).putUser
        (namesEnd net c) pClient := by
  have hend : ∀ net', (∀ sCode, numeric net' sCode = numeric net sCode) →
      namesPrefix net' c = namesPrefix net c ∧ namesEnd net' c = namesEnd net c := by
    intro net' h
    exact ⟨by rw [namesPrefix, namesPrefix, h], by rw [namesEnd, namesEnd, h]⟩
  have hgreet : (attachUser t net c pClient).1 =
      let net' := putAll pClient net (greeting net c)
      let net'' := clientLoop t c (namesPrefix net' c) pClient (List.range net'.vClients.length) net'
        (namesPrefix net' c)
      net''.putUser (namesEnd net'' c) pClient := by
    unfold attachUser greeting putAll
    by_cases htopic : c.sTopic = []
    · simp [htopic]
    · by_cases howner : c.sTopicOwner = []
      · simp [htopic, howner, putUser_numeric]
      · simp [htopic, howner, putUser_numeric]
  rw [hgreet]
  dsimp only
  rw [(hend _ (putAll_numeric pClient net _)).1, (hend _ fun sCode => by rw [clientLoop_numeric, putAll_numeric]).2]

theorem attachUser_client (c : CChan) (pClient : Option ℕ) (j : ℕ) :
    (attachUser t net c pClient).1.vClients[j]? = net.vClients[j]?.map fun client =>
      if Addressed pClient j then
        client.puts (greeting net c ++ lines t c (namesPrefix net c) client ++ [namesEnd net c])
      else client := by
  rw [attachUser_eq, putUser_getElem?, clientLoop_getElem?, putAll_getElem?, Option.map_map, Option.map_map]
  refine congrArg (net.vClients[j]?.map ·) (funext fun client => ?_)
  by_cases hj : Addressed pClient j
  · simp only [Function.comp_apply, if_pos hj, CClient.puts_puts]
    rfl
  · simp only [Function.comp_apply, if_neg hj]

theorem Listed.lines_eq {t : ServerTables} {net : CIRCNetwork} {c : CChan} {pClient : Option ℕ} {i : ℕ}
    {client client' : CClient} {groups : List VCString} (h : Listed t net c client client' groups)
    (hi : net.vClients[i]? = some client) (hi' : (attachUser t net c pClient).1.vClients[i]? = some client')
    (haddr : Addressed pClient i) :
    lines t c (namesPrefix net c) client = groups.map fun g => namesPrefix net c ++ join (lit " ") g := by
  rw [attachUser_client, hi, Option.map_some, if_pos haddr] at hi'
  have hsent := congrArg CClient.vsSent (Option.some.inj hi')
  rw [h.sent] at hsent
  exact append_cancel_left (append_cancel_right (append_cancel_left hsent))

theorem replayed_iff (t : ServerTables) (net : CIRCNetwork) (c : CChan) (pClient : Option ℕ) :
    Replayed t net c pClient ↔ ∀ i client, net.vClients[i]? = some client → Addressed pClient i →
      (∀ s ∈ entries t c client, s.length ≤ 100) → ∀ l ∈ lines t c (namesPrefix net c) client, l.length ≤ 510 := by
  refine ⟨fun h i client hi haddr hentries => ?_, fun h i client hi => ?_⟩
  · obtain ⟨client', hi', hlisted, -⟩ := h i client hi
    obtain ⟨groups, hgroups⟩ := hlisted haddr
    rw [hgroups.lines_eq hi hi' haddr, forall_mem_map]
    exact hgroups.short hentries
  · refine ⟨_, by rw [attachUser_client, hi, Option.map_some], fun haddr => ?_, fun haddr => if_neg haddr⟩
    obtain ⟨groups, hnames, hflat, hfilled⟩ := names_groups (namesPrefix net c) (entries t c client) [] fun _ => rfl
    rw [flatMap_nil, append_nil] at hnames
    rw [if_pos haddr]
    refine ⟨groups, ?_, by rw [hflat, nil_append], hfilled, fun hentries => ?_⟩
    · rw [← hnames]
      rfl
    · have hall := h i client hi haddr hentries
      rwa [lines, hnames, forall_mem_map] at hall

/-! ## Short entries -/

/-- the line in hand is new or has at most 490 bytes, and so an entry of 20 bytes fits -/
theorem names_short {m : ℕ} (hm : m ≤ 20) (hpre : sPre.length + m ≤ 510) {ss : VCString} (hss : ∀ s ∈ ss, s.length ≤ m) :
    ∀ l ∈ names sPre sPre ss, l.length ≤ 510 := by
  rw [short_iff]
  have hrun : ∀ sLine : CString, sLine = sPre ∨ sLine.length ≤ 490 →
      Along (nextLine sPre) (fun _ sLine s => sLine.length + s.length ≤ 510) ss sLine := by
    induction ss with
    | nil => exact fun _ _ => trivial
    | cons s ss ih =>
      intro sLine hline
      obtain ⟨hs, hss⟩ := forall_mem_cons.1 hss
      refine ⟨?_, ih hss _ ?_⟩
      · rcases hline with rfl | hline <;> omega
      · unfold nextLine
        split
        · exact .inl rfl
        · case isFalse hshort =>
          right
          have hspace : (lit " ").length = 1 := rfl
          rw [length_append, hspace]
          omega
  exact hrun sPre (.inl rfl)

/-- entries that fill a line up to 490 bytes are sent with the next one -/
theorem names_long {ss : VCString} {sLine s : CString} (hfill : sLine.length + (ss.map (·.length + 1)).sum = 490)
    (hs : 20 < s.length) : ¬∀ l ∈ names sPre sLine (ss ++ [s]), l.length ≤ 510 := by
  rw [short_iff]
  induction ss generalizing sLine with
  | nil =>
    rintro ⟨hshort, -⟩
    rw [map_nil, sum_nil] at hfill
    omega
  | cons a ss ih =>
    rintro ⟨-, hrest⟩
    rw [map_cons, sum_cons] at hfill
    have hspace : (lit " ").length = 1 := rfl
    have hnext : nextLine sPre sLine a = sLine ++ a ++ lit " " := by
      refine if_neg ?_
      rw [length_append]
      omega
    refine ih ?_ hrest
    rw [hnext, length_append, length_append, hspace]
    omega

/-- a nick of which no more is known -/
def bareNick (sNick : CString) : Chan.CNick := ⟨⟨sNick, [], []⟩, [], true⟩

/-- names of given lengths, each with a letter of its own -/
def letters (i : ℕ) : List ℕ → VCString
  | [] => []
  | n :: ns => List.replicate n (UInt8.ofNat i) :: letters (i + 1) ns

theorem length_letters (i : ℕ) (ns : List ℕ) : (letters i ns).map List.length = ns := by
  induction ns generalizing i with
  | nil => rfl
  | cons n ns ih => rw [letters, map_cons, ih, length_replicate]

theorem letters_append (i : ℕ) (ns ms : List ℕ) : letters i (ns ++ ms) = letters i ns ++ letters (i + ns.length) ms := by
  induction ns generalizing i with
  | nil => rfl
  | cons n ns ih =>
    rw [cons_append, letters, letters, ih, cons_append, length_cons, Nat.add_comm ns.length, Nat.add_assoc]

theorem replicate_lt_letters {i j : ℕ} {ns : List ℕ} (hij : i < j) (hj : j + ns.length ≤ 256) (hns : ∀ n ∈ ns, n ≠ 0)
    (k : ℕ) : ∀ s ∈ letters j ns, List.replicate k (UInt8.ofNat i) < s := by
  induction ns generalizing j with
  | nil => exact fun s hs => nomatch hs
  | cons n ns ih =>
    obtain ⟨hn, hns⟩ := forall_mem_cons.1 hns
    rw [length_cons] at hj
    refine forall_mem_cons.2 ⟨?_, ih (by omega) (by omega) hns⟩
    obtain ⟨n, rfl⟩ := Nat.exists_eq_succ_of_ne_zero hn
    cases k with
    | zero => exact nil_lt_cons _ _
    | succ k =>
      refine cons_lt_cons_iff.2 (.inl ?_)
      rw [UInt8.lt_iff_toNat_lt, UInt8.toNat_ofNat', UInt8.toNat_ofNat']
      omega

theorem letters_sorted {i : ℕ} {ns : List ℕ} (htail : ∀ n ∈ ns.tail, n ≠ 0) (hi : i + ns.length ≤ 256) :
    (letters i ns).Pairwise (· < ·) := by
  induction ns generalizing i with
  | nil => exact List.Pairwise.nil
  | cons n ns ih =>
    rw [length_cons] at hi
    have htail : ∀ m ∈ ns, m ≠ 0 := htail
    refine pairwise_cons.2 ⟨replicate_lt_letters (Nat.lt_succ_self i) (by omega) htail n, ih ?_ (by omega)⟩
    exact fun m hm => htail m (mem_of_mem_tail hm)

/-- a table of nicks with names of these lengths -/
theorem exists_table (t : ServerTables) (c : CChan) {ns : List ℕ} (htail : ∀ n ∈ ns.tail, n ≠ 0) (hns : ns.length ≤ 256) :
    ∃ msNicks, ∀ client, entries t { c with msNicks := msNicks } client = letters 0 ns := by
  refine ⟨⟨(letters 0 ns).map fun s => (s, bareNick s), ?_⟩, fun client => ?_⟩
  · rw [pairwise_map]
    exact letters_sorted htail (by omega)
  · have hshown : ∀ s, shown t client (s, bareNick s) = s := by
      intro s
      have hperms : (bareNick s).getPermStr t = [] :=
        filter_eq_nil_iff.2 fun c _ => by simp [bareNick, Chan.CNick.hasPerm]
      rw [shown]
      simp only [hperms]
      simp [bareNick]
    rw [entries, map_map]
    exact (map_congr_left fun s _ => hshown s).trans (map_id _)

/-- names of at most `m` bytes that make a line too long, if a name of `m` bytes has no room -/
theorem exists_long {m : ℕ} (hpos : 1 ≤ m) (hlarge : ¬(m ≤ 20 ∧ sPre.length + m ≤ 510)) :
    ∃ ns : List ℕ, ns.length ≤ 256 ∧ (∀ n ∈ ns.tail, n ≠ 0) ∧ (∀ n ∈ ns, n ≤ m) ∧
      ¬∀ l ∈ names sPre sPre (letters 0 ns), l.length ≤ 510 := by
  by_cases hpre : 510 < sPre.length + m
  · refine ⟨[m], by simp, by simp, by simp, fun hall => ?_⟩
    have hone := hall (sPre ++ List.replicate m (UInt8.ofNat 0)) (by simp [letters, names])
    rw [length_append, length_replicate] at hone
    omega
  · have hdiv := Nat.mod_add_div (489 - sPre.length) 21
    have hmod := Nat.mod_lt (489 - sPre.length) (show 0 < 21 by decide)
    set r := (489 - sPre.length) % 21
    set q := (489 - sPre.length) / 21
    refine ⟨r :: List.replicate q 20 ++ [m], ?_, ?_, ?_, ?_⟩
    · simp
      omega
    · simp
      omega
    · intro n hn
      simp at hn
      omega
    · rw [letters_append]
      refine names_long sPre ?_ (by rw [length_replicate]; omega)
      have hlengths : (letters 0 (r :: List.replicate q 20)).map (·.length + 1) =
          (r :: List.replicate q 20).map (· + 1) := by
        nth_rewrite 2 [← length_letters 0 (r :: List.replicate q 20)]
        rw [map_map]
        rfl
      rw [hlengths]
      simp
      omega

/-- **When all lines are short enough**: for every network and channel with a client that is addressed, and every bound on the
entries up to 100 bytes, the tables with such entries are all replayed as they should be exactly if an entry has at most 20
bytes, and at most 510 with what stands in front of it on a new line. -/
theorem attachUser_iff (t : ServerTables) (net : CIRCNetwork) (c : CChan) (pClient : Option ℕ) {i : ℕ} {client : CClient}
    (hi : net.vClients[i]? = some client) (haddr : Addressed pClient i) {m : ℕ} (hpos : 1 ≤ m) (hm : m ≤ 100) :
    (∀ msNicks, (∀ client ∈ net.vClients, ∀ s ∈ entries t { c with msNicks := msNicks } client, s.length ≤ m) →
        Replayed t net { c with msNicks := msNicks } pClient) ↔
      m ≤ 20 ∧ (namesPrefix net c).length + m ≤ 510 := by
  constructor
  · intro h
    by_contra hlarge
    obtain ⟨ns, hns, htail, hle, hlong⟩ := exists_long (namesPrefix net c) hpos hlarge
    obtain ⟨msNicks, hentries⟩ := exists_table t c htail hns
    have hlength : ∀ s ∈ letters 0 ns, s.length ≤ m := by
      intro s hs
      have hmem := mem_map_of_mem (f := List.length) hs
      rw [length_letters] at hmem
      exact hle _ hmem
    refine hlong ?_
    have hall := (replayed_iff t net _ pClient).1 (h msNicks fun client _ s hs => ?_) i client hi haddr fun s hs => ?_
    · rw [lines, hentries] at hall
      exact hall
    · rw [hentries] at hs
      exact hlength s hs
    · rw [hentries] at hs
      exact (hlength s hs).trans hm
  · rintro ⟨hm, hpre⟩ msNicks hentries
    refine (replayed_iff t net _ pClient).2 fun j client hj _ _ => ?_
    exact names_short _ hm hpre (hentries client (mem_of_getElem? hj))

/-! ## Six users -/

/-- a client with userhost-in-names -/
def uhClient : CClient := ⟨false, true, []⟩

def uhNet : CIRCNetwork := ⟨lit "irc.example.net", ⟨lit "me", lit "user", lit "host"⟩, [uhClient]⟩

/-- a user with a host name of 63 letters -/
def longUser (sNick : CString) : CString × Chan.CNick :=
  (sNick, {
    sNick := sNick
    sIdent := lit "identident"
    sHost := List.replicate 63 (ch 'h')
    sChanPerms := []
    bNetwork := true })

def sixUsers : CChan := { Chan.CChan.new with
  msNicks := .ofList ([lit "nickname1", lit "nickname2", lit "nickname3", lit "nickname4", lit "nickname5",
    lit "nickname6"].map longUser)
  sName := lit "#channel"
  sTopic := []
  sTopicOwner := []
  ulTopicDate := 0
  bDetached := true }

/-- two users with short names -/
theorem attachUser_short : Replayed (.initial (lit "#")) uhNet { sixUsers with
    msNicks := .ofList ([lit "alice", lit "bob"].map fun s => (s, bareNick s)) } none := by
  have hclient : uhNet.vClients[0]? = some uhClient := rfl
  have hiff := attachUser_iff (.initial (lit "#")) uhNet sixUsers none hclient (by decide) (show 1 ≤ 20 by decide) (by decide)
  exact hiff.2 ⟨le_rfl, by decide +kernel⟩ _ (by decide +kernel)

/-- **Six users** on one line of 545 bytes. -/
theorem attachUser_long : ¬Replayed (.initial (lit "#")) uhNet sixUsers none := by
  intro h
  obtain ⟨client', hi', hlisted, -⟩ := h 0 uhClient rfl
  obtain ⟨groups, hgroups⟩ := hlisted (by decide)
  have hentries : ∀ s ∈ entries (.initial (lit "#")) sixUsers uhClient, s.length ≤ 100 := by decide +kernel
  have hlong : ¬∀ l ∈ lines (.initial (lit "#")) sixUsers (namesPrefix uhNet sixUsers) uhClient, l.length ≤ 510 := by
    decide +kernel
  refine hlong ?_
  rw [hgroups.lines_eq rfl hi' (by decide), forall_mem_map]
  exact hgroups.short hentries

end ZNC.NamesReplay
