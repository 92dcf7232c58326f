/-
The answers to CAP LS and CAP LIST: `MultiLine` and `HandleCap` of `src/Client.cpp`.

The capabilities are packed into lines of about 400 bytes. A client that has said 302 gets all of them, the others the
first one. What stands in front of the capabilities is not counted, the first line is begun before there is anything to
put on it, and the answer to LIST for the older clients names another subcommand.

Model: what the modules offer is a parameter of `ClientCaps.Env`. No capability is empty: what a client switches on is a
word of its request (`accepted_named`).

Results:
- `multiLine_eq`: the lines as groups of capabilities;
- `short_of_nick`: nicks beside which every line is short enough;
- `handleCap_listing_iff`: when an answer is what it should be;
- `handleCap_lists`: LIST from an older client.
-/
import ZNC.ClientCaps
import ZNC.Lib.Packing

namespace ZNC.CapReplies

open CString ClientCaps Packing Journal List ClientCaps.CClient

/-! ## Statements -/

/-- the two requests -/
inductive Listing where
  | ls
  | list
deriving DecidableEq, Repr

namespace Listing

def name : Listing → CString
  | ls => lit "LS"
  | list => lit "LIST"

/-- the client when it is answered: LS comes with the version of the client -/
def client (s : ClientCaps.CClient) (Message : CMessage) : Listing → ClientCaps.CClient
  | ls => { s with uCapVersion := max s.uCapVersion (Message.getParam 1).toUShort }
  | list => s

/-- the capabilities that are asked for -/
def caps (l : Listing) (s : ClientCaps.CClient) (e : Env) (Message : CMessage) : VCString :=
  match l with
  | ls => offer (client s Message ls) e
  | list => s.ssAcceptedCaps.toList

/-- the client has said 302 -/
def multi (l : Listing) (s : ClientCaps.CClient) (Message : CMessage) : Bool := (l.client s Message).hasCap302

end Listing

/-- a line of an answer, as a client reads it -/
structure CapReply where
  sSubCmd : CString
  bMore : Bool
  vsCaps : VCString

def mark (bMore : Bool) : CString := if bMore then lit " * :" else lit " :"

def capLine (e : Env) (sResponse : CString) : CString := lit ":irc.znc.in CAP " ++ e.sNick ++ lit " " ++ sResponse

def CapReply.line (e : Env) (r : CapReply) : CString :=
  capLine e (r.sSubCmd ++ mark r.bMore ++ join (lit " ") r.vsCaps)

/-- the lines are what is promised of an answer -/
structure Answered (l : Listing) (s : ClientCaps.CClient) (e : Env) (Message : CMessage)
    (replies : List CapReply) : Prop where
  sent : (handleCap s e Message).vsSent = s.vsSent ++ replies.map (CapReply.line e)
  subCmd : ∀ r ∈ replies, r.sSubCmd = l.name
  once : (l.caps s e Message).Nodup
  all : l.multi s Message = true → replies.flatMap (·.vsCaps) = l.caps s e Message
  more : l.multi s Message = true → ∀ i (h : i < replies.length), replies[i].bMore = decide (i + 1 < replies.length)
  filled : l.multi s Message = true → l.caps s e Message ≠ [] → ∀ r ∈ replies, r.vsCaps ≠ []
  single : l.multi s Message = false → ∃ vsCaps, replies = [⟨l.name, false, vsCaps⟩] ∧ vsCaps <+: l.caps s e Message
  short : (∀ sCap ∈ l.caps s e Message, sCap.length ≤ 400) → ∀ r ∈ replies, (r.line e).length ≤ 510

/-- the capability fits behind these, in the eyes of `MultiLine` -/
def fits (g : VCString) (sCap : CString) : Bool := (join (lit " ") g).length + sCap.length ≤ 400

/-- the length of the nicks beside which the longest group of capabilities has room on a line -/
def nickRoom (l : Listing) (bMulti : Bool) : ℕ := 92 - l.name.length - (mark bMulti).length

/-- what an answer needs besides a short nick -/
structure InOrder (l : Listing) (s : ClientCaps.CClient) (e : Env) (Message : CMessage) : Prop where
  named : l = .ls ∨ l.multi s Message = true
  first : l.multi s Message = true → ∀ sCap ∈ (l.caps s e Message).head?, sCap.length ≤ 400

/-! ## Lines as groups of capabilities -/

theorem join_eq_nil_iff {g : VCString} (hg : ∀ sCap ∈ g, sCap ≠ []) : join (lit " ") g = [] ↔ g = [] := by
  cases g with
  | nil => simp [join]
  | cons sCap g => simp [join_cons, hg sCap mem_cons_self]

theorem join_hand {g : VCString} (hg : ∀ sCap ∈ g, sCap ≠ []) (sCap : CString) : join (lit " ") (g ++ [sCap]) =
    (if join (lit " ") g = [] then [] else join (lit " ") g ++ lit " ") ++ sCap := by
  by_cases hnil : g = []
  · rw [if_pos ((join_eq_nil_iff hg).2 hnil), hnil]
    simp [join_cons]
  · rw [if_neg fun h => hnil ((join_eq_nil_iff hg).1 h), join_append_singleton _ hnil]

theorem multiLineFrom_eq {g vsCaps : VCString} (hg : ∀ sCap ∈ g, sCap ≠ []) (hcaps : ∀ sCap ∈ vsCaps, sCap ≠ []) :
    multiLineFrom (join (lit " ") g) vsCaps = (pack fits g vsCaps).map (join (lit " ")) := by
  induction vsCaps generalizing g with
  | nil => rfl
  | cons sCap vsCaps ih =>
    rw [forall_mem_cons] at hcaps
    have hone : ∀ c ∈ [sCap], c ≠ [] := by simpa using hcaps.1
    rw [multiLineFrom, pack]
    by_cases hfit : 400 < (join (lit " ") g).length + sCap.length
    · have hno : fits g sCap = false := decide_eq_false (not_le.2 hfit)
      have hback : join (lit " ") [sCap] = sCap := by simp [join_cons]
      have hrest := ih hone hcaps.2
      rw [hback] at hrest
      rw [if_pos hfit, hno, hrest]
      rfl
    · have hyes : fits g sCap = true := decide_eq_true (not_lt.1 hfit)
      have hnext : ∀ c ∈ g ++ [sCap], c ≠ [] := forall_mem_append.2 ⟨hg, hone⟩
      rw [if_neg hfit, hyes, if_pos rfl, ← join_hand hg, ih hnext hcaps.2]

theorem multiLine_eq {vsCaps : VCString} (hcaps : ∀ sCap ∈ vsCaps, sCap ≠ []) :
    multiLine vsCaps = (pack fits [] vsCaps).map (join (lit " ")) :=
  multiLineFrom_eq (g := []) (by simp) hcaps

theorem length_group {g vsCaps : VCString} (hg : (join (lit " ") g).length ≤ 401)
    (hcaps : ∀ sCap ∈ vsCaps, sCap.length ≤ 400) : ∀ h ∈ pack fits g vsCaps, (join (lit " ") h).length ≤ 401 := by
  induction vsCaps generalizing g with
  | nil => simpa [pack] using hg
  | cons sCap vsCaps ih =>
    rw [forall_mem_cons] at hcaps
    have hhand : (join (lit " ") (hand fits g sCap)).length ≤ 401 := by
      unfold hand
      split
      · rename_i hfit
        have hlen : (join (lit " ") g).length + sCap.length ≤ 400 := of_decide_eq_true hfit
        by_cases hnil : g = []
        · simp [hnil, join_cons]
          omega
        · rw [join_append_singleton _ hnil, length_append, length_append]
          have hspace : (lit " ").length = 1 := rfl
          omega
      · simp [join_cons]
        omega
    intro h hh
    rw [pack_cons, mem_append] at hh
    rcases hh with hh | hh
    · split at hh
      · cases hh
      · rw [mem_singleton.1 hh]
        exact hg
    · exact ih hhand hcaps.2 h hh

/-! ## What is sent -/

theorem respondLines_sent (s : ClientCaps.CClient) (e : Env) (sCmd : CString) {vsCaps : VCString} (hne : vsCaps ≠ []) :
    (s.respondLines e sCmd vsCaps).vsSent = s.vsSent ++ (vsCaps.dropLast.map (fun sCaps =>
      capLine e (sCmd ++ lit " * :" ++ sCaps)) ++ [capLine e (sCmd ++ lit " :" ++ vsCaps.getLast hne)]) := by
  have hfold : ∀ (vs : VCString) (s : ClientCaps.CClient),
      (vs.foldl (fun s sCaps => s.respondCap e (sCmd ++ lit " * :" ++ sCaps)) s).vsSent =
        s.vsSent ++ vs.map fun sCaps => capLine e (sCmd ++ lit " * :" ++ sCaps) := by
    intro vs
    induction vs with
    | nil => simp
    | cons sCaps vs ih =>
      intro s
      rw [foldl_cons, ih, map_cons]
      simp [respondCap, putClient, capLine]
  rw [respondLines, respondCap, putClient, hfold, getLastD_eq_getLast?, getLast?_eq_some_getLast hne]
  simp [capLine]

variable {l : Listing} {s : ClientCaps.CClient} {e : Env} {Message : CMessage}

theorem handleCap_listing (hreq : (Message.getParam 0).equals l.name = true) : handleCap s e Message =
    match l with
    | .ls => capLs s e Message
    | .list => capList s e := by
  unfold handleCap
  cases l with
  | ls => exact if_pos hreq
  | list =>
    have hother : ∀ w, (lit "LIST").equals w = false → (Message.getParam 0).equals w = false := fun w hw => by
      rw [equals_congr hreq, Listing.name, hw]
    have hlist : (Message.getParam 0).equals (lit "LIST") = true := hreq
    simp only [hother (lit "LS") (by decide), hother (lit "END") (by decide), hother (lit "REQ") (by decide), hlist,
      Bool.false_eq_true, if_false, if_true]

def replyLines (l : Listing) (e : Env) (vsCaps : VCString) (bMulti : Bool) : List CString :=
  let groups := pack fits [] vsCaps
  if bMulti then
    groups.dropLast.map (fun g => CapReply.line e ⟨l.name, true, g⟩) ++
      [CapReply.line e ⟨l.name, false, groups.getLast (pack_ne_nil [] vsCaps)⟩]
  else [capLine e ((if l = .ls then lit "LS :" else lit "LISTS :") ++ join (lit " ") (groups.headD []))]

theorem respondLines_groups (s : ClientCaps.CClient) (e : Env) (l : Listing) {vsCaps : VCString}
    (hcaps : ∀ sCap ∈ vsCaps, sCap ≠ []) :
    (s.respondLines e l.name (multiLine vsCaps)).vsSent = s.vsSent ++ replyLines l e vsCaps true := by
  have hne : multiLine vsCaps ≠ [] := by
    rw [multiLine_eq hcaps, ne_eq, map_eq_nil_iff]
    exact pack_ne_nil [] vsCaps
  rw [respondLines_sent _ _ _ hne, replyLines]
  simp only [multiLine_eq hcaps, getLast_map, ← map_dropLast, map_map]
  rfl

theorem handleCap_sent (hreq : (Message.getParam 0).equals l.name = true)
    (hcaps : ∀ sCap ∈ l.caps s e Message, sCap ≠ []) : (handleCap s e Message).vsSent =
      s.vsSent ++ replyLines l e (l.caps s e Message) (l.multi s Message) := by
  have hhead : (multiLine (l.caps s e Message)).headD [] =
      join (lit " ") ((pack fits [] (l.caps s e Message)).headD []) := by
    rw [multiLine_eq hcaps]
    cases pack fits [] (l.caps s e Message) <;> rfl
  rw [handleCap_listing hreq]
  cases hmulti : l.multi s Message with
  | true =>
    cases l with
    | ls =>
      have hcap : (Listing.client s Message .ls).hasCap302 = true := hmulti
      calc (capLs s e Message).vsSent
          = (({ Listing.client s Message .ls with bInCap := true }.setFeature .capNotify true).respondLines e (lit "LS")
              (multiLine (Listing.caps .ls s e Message))).vsSent := by
            unfold capLs
            exact congrArg vsSent (if_pos hcap)
        _ = _ := respondLines_groups _ e .ls hcaps
    | list =>
      have hcap : s.hasCap302 = true := hmulti
      calc (capList s e).vsSent = (s.respondLines e (lit "LIST") (multiLine s.ssAcceptedCaps.toList)).vsSent :=
            congrArg vsSent (if_pos hcap)
        _ = _ := respondLines_groups _ e .list hcaps
  | false =>
    cases l with
    | ls =>
      have hcap : ¬(Listing.client s Message .ls).hasCap302 = true := Bool.eq_false_iff.1 hmulti
      calc (capLs s e Message).vsSent
          = ({ Listing.client s Message .ls with bInCap := true }.respondCap e
              (lit "LS :" ++ (multiLine (Listing.caps .ls s e Message)).headD [])).vsSent := by
            unfold capLs
            exact congrArg vsSent (if_neg hcap)
        _ = _ := by rw [hhead]; rfl
    | list =>
      have hcap : ¬s.hasCap302 = true := Bool.eq_false_iff.1 hmulti
      calc (capList s e).vsSent
          = (s.respondCap e (lit "LISTS :" ++ (multiLine (Listing.caps .list s e Message)).headD [])).vsSent :=
            congrArg vsSent (if_neg hcap)
        _ = _ := by rw [hhead]; rfl

/-! ## Answers -/

theorem mark_inj {b b' : Bool} {x y : CString} (h : mark b ++ x = mark b' ++ y) : b = b' ∧ x = y := by
  have hbytes : ch '*' ≠ ch ':' := by decide
  cases b <;> cases b'
  · exact ⟨rfl, append_cancel_left h⟩
  · exact absurd (List.cons.inj (List.cons.inj h).2).1.symm hbytes
  · exact absurd (List.cons.inj (List.cons.inj h).2).1 hbytes
  · exact ⟨rfl, append_cancel_left h⟩

theorem length_line (r : CapReply) : (r.line e).length =
    17 + e.sNick.length + r.sSubCmd.length + (if r.bMore then 4 else 2) + (join (lit " ") r.vsCaps).length := by
  have hmark : (mark r.bMore).length = if r.bMore then 4 else 2 := by
    cases r.bMore <;> rfl
  have hcap : (lit ":irc.znc.in CAP ").length = 16 := rfl
  have hspace : (lit " ").length = 1 := rfl
  simp only [CapReply.line, capLine, length_append, hmark, hcap, hspace]
  omega

variable (vsCaps : VCString)

/-- the lines of an answer in order, as a client reads them -/
def repliesOf (l : Listing) (vsCaps : VCString) (bMulti : Bool) : List CapReply :=
  let groups := pack fits [] vsCaps
  if bMulti then
    groups.dropLast.map (fun g => ⟨l.name, true, g⟩) ++ [⟨l.name, false, groups.getLast (pack_ne_nil [] vsCaps)⟩]
  else [⟨l.name, false, groups.headD []⟩]

theorem replyLines_eq (e : Env) (vsCaps : VCString) {bMulti : Bool} (hnamed : l = .ls ∨ bMulti = true) :
    replyLines l e vsCaps bMulti = (repliesOf l vsCaps bMulti).map (CapReply.line e) := by
  cases bMulti with
  | true =>
    rw [replyLines, repliesOf, if_pos rfl, if_pos rfl, map_append, map_map]
    rfl
  | false =>
    obtain rfl : l = .ls := hnamed.resolve_right Bool.false_ne_true
    rfl

theorem repliesOf_name (bMulti : Bool) : ∀ r ∈ repliesOf l vsCaps bMulti, r.sSubCmd = l.name := by
  cases bMulti with
  | true =>
    rw [repliesOf, if_pos rfl, forall_mem_append, forall_mem_map, forall_mem_singleton]
    exact ⟨fun _ _ => rfl, rfl⟩
  | false => exact forall_mem_singleton.2 rfl

theorem repliesOf_multi : (repliesOf l vsCaps true).map (·.vsCaps) = pack fits [] vsCaps ∧
    ∀ i (h : i < (repliesOf l vsCaps true).length),
      (repliesOf l vsCaps true)[i].bMore = decide (i + 1 < (repliesOf l vsCaps true).length) := by
  rw [repliesOf, if_pos rfl]
  refine ⟨?_, fun i h => ?_⟩
  · rw [map_append, map_map, map_singleton]
    exact (congrArg (· ++ _) (map_id _)).trans (dropLast_append_getLast (pack_ne_nil [] vsCaps))
  · rw [length_append, length_singleton] at h ⊢
    by_cases hi : i < ((pack fits [] vsCaps).dropLast.map fun g => (⟨l.name, true, g⟩ : CapReply)).length
    · rw [getElem_append_left hi, getElem_map]
      exact (decide_eq_true (Nat.succ_lt_succ hi)).symm
    · rw [getElem_append_right (not_lt.1 hi), getElem_singleton]
      exact (decide_eq_false fun hlt => hi (Nat.lt_of_succ_lt_succ hlt)).symm

theorem vsCaps_eq_nil {r r' : CapReply} (hname : r.sSubCmd = r'.sSubCmd) (hline : r.line e = r'.line e)
    (hne : ∀ sCap ∈ r.vsCaps, sCap ≠ []) (hnil : r'.vsCaps = []) : r.vsCaps = [] := by
  have hrest := append_cancel_left hline
  rw [hname, hnil, append_assoc, append_assoc] at hrest
  have hjoin : join (lit " ") r.vsCaps = [] := (mark_inj (append_cancel_left hrest)).2
  exact (join_eq_nil_iff hne).1 hjoin

theorem repliesOf_group (bMulti : Bool) : ∀ r ∈ repliesOf l vsCaps bMulti, r.vsCaps ∈ pack fits [] vsCaps ∧
    (r.bMore = true → bMulti = true) := by
  cases bMulti with
  | true =>
    refine fun r hr => ⟨?_, fun _ => rfl⟩
    rw [← (repliesOf_multi vsCaps).1]
    exact mem_map_of_mem hr
  | false =>
    intro r hr
    obtain rfl := mem_singleton.1 hr
    refine ⟨?_, id⟩
    cases hpack : pack fits [] vsCaps with
    | nil => exact absurd hpack (pack_ne_nil [] vsCaps)
    | cons g groups => exact mem_cons_self

/-- **Short lines.** -/
theorem short_of_nick {bMulti : Bool} (hnick : e.sNick.length ≤ nickRoom l bMulti)
    (hcaps : ∀ sCap ∈ vsCaps, sCap.length ≤ 400) : ∀ r ∈ repliesOf l vsCaps bMulti, (r.line e).length ≤ 510 := by
  intro r hr
  obtain ⟨hmem, hmore⟩ := repliesOf_group vsCaps bMulti r hr
  have hgroup : (join (lit " ") r.vsCaps).length ≤ 401 := length_group (by simp [join]) hcaps _ hmem
  have hmark : (if r.bMore then 4 else 2) ≤ (mark bMulti).length := by
    cases hr : r.bMore with
    | true => rw [hmore hr]; decide
    | false => cases bMulti <;> decide
  have hmarks : (mark bMulti).length ≤ 4 := by cases bMulti <;> decide
  have hname : l.name.length ≤ 4 := by cases l <;> decide
  rw [length_line, repliesOf_name _ _ r hr]
  rw [nickRoom] at hnick
  omega

/-- three capabilities of which the first two fill a line -/
def wideCaps : VCString := [List.replicate 200 (ch 'a'), List.replicate 200 (ch 'b'), lit "c"]

/-- some client has these to be listed, and modules offer them -/
theorem caps_wide (l : Listing) (s : ClientCaps.CClient) (e : Env) (Message : CMessage) : ∃ s' e', e'.sNick = e.sNick ∧
    l.multi s' Message = l.multi s Message ∧ l.caps s' e' Message = wideCaps := by
  have hset : (OrdSet.ofList wideCaps).toList = wideCaps := by decide +kernel
  cases l with
  | ls =>
    refine ⟨s, { e with onClientCapLs := fun _ => .ofList wideCaps, ssClientCapBlacklist := .empty }, rfl, rfl, ?_⟩
    rw [Listing.caps, offer]
    dsimp only
    rw [hset]
    exact filter_eq_self.2 fun _ _ => rfl
  | list => exact ⟨{ s with ssAcceptedCaps := .ofList wideCaps }, e, rfl, rfl, hset⟩

theorem answered_iff (hreq : (Message.getParam 0).equals l.name = true)
    (hcaps : ∀ sCap ∈ l.caps s e Message, sCap ≠ []) (hnick : e.sNick.length ≤ nickRoom l (l.multi s Message)) :
    (∃ replies, Answered l s e Message replies) ↔ InOrder l s e Message := by
  have hsent := handleCap_sent hreq hcaps
  refine ⟨fun ⟨replies, h⟩ => ?_, fun h => ?_⟩
  · have hlines : replies.map (CapReply.line e) = replyLines l e (l.caps s e Message) (l.multi s Message) :=
      append_cancel_left (h.sent.symm.trans hsent)
    have hnamed : l = .ls ∨ l.multi s Message = true := by
      by_contra hno
      obtain ⟨hls, hmulti⟩ := not_or.1 hno
      have hmulti := Bool.eq_false_iff.2 hmulti
      obtain ⟨vsCaps, rfl, -⟩ := h.single hmulti
      obtain rfl : l = .list := by cases l with
        | ls => exact absurd rfl hls
        | list => rfl
      rw [hmulti] at hlines
      have hline := append_cancel_left (List.cons.inj hlines).1
      -- the letter behind LIST
      have hletter : some (ch ' ') = some (ch 'S') := congrArg (fun t : CString => t[4]?) hline
      exact absurd hletter (by decide)
    refine ⟨hnamed, fun hmulti sCap hfirst => ?_⟩
    by_contra hlong
    have hno : fits [] sCap = false := decide_eq_false fun hfit => hlong (by simpa [join] using hfit)
    have hempty : [] ∈ pack fits [] (l.caps s e Message) :=
      (nil_mem_pack_iff _).2 fun c hc => by rw [Option.mem_unique hc hfirst, hno]
    rw [← (repliesOf_multi _).1] at hempty
    obtain ⟨r', hr', hnil⟩ := mem_map.1 hempty
    have hmem := mem_map_of_mem (f := CapReply.line e) hr'
    rw [← replyLines_eq e _ (.inr rfl), ← hmulti, ← hlines] at hmem
    obtain ⟨r, hr, hline⟩ := mem_map.1 hmem
    have hwords : ∀ c ∈ r.vsCaps, c ≠ [] := fun c hc =>
      hcaps c (h.all hmulti ▸ mem_flatMap.2 ⟨r, hr, hc⟩)
    have hname : r.sSubCmd = r'.sSubCmd := (h.subCmd r hr).trans (repliesOf_name _ _ r' hr').symm
    refine h.filled hmulti (fun hnone => ?_) r hr (vsCaps_eq_nil hname hline hwords hnil)
    rw [hnone] at hfirst
    cases hfirst
  · refine ⟨repliesOf l (l.caps s e Message) (l.multi s Message), ?_⟩
    exact
      { sent := by rw [hsent, replyLines_eq e _ h.named]
        subCmd := repliesOf_name _ _
        once := by cases l with
          | ls => exact (OrdSet.toList_nodup _).filter _
          | list => exact OrdSet.toList_nodup _
        all := fun hmulti => by
          rw [hmulti, flatMap_def, (repliesOf_multi _).1, pack_flatten, nil_append]
        more := fun hmulti => by
          rw [hmulti]
          exact (repliesOf_multi _).2
        filled := fun hmulti hne r hr hnil => by
          rw [hmulti] at hr
          have hempty : [] ∈ pack fits [] (l.caps s e Message) := by
            rw [← (repliesOf_multi _).1]
            exact mem_map.2 ⟨r, hr, hnil⟩
          obtain ⟨sCap, hfirst⟩ := Option.ne_none_iff_exists'.1 (mt head?_eq_none_iff.1 hne)
          have hno := (nil_mem_pack_iff _).1 hempty sCap hfirst
          have hlen := h.first hmulti sCap hfirst
          exact absurd hno (by simpa [fits, join] using hlen)
        single := fun hmulti => by
          rw [hmulti]
          obtain ⟨k, hhd⟩ := head_pack fits [] (l.caps s e Message)
          refine ⟨(l.caps s e Message).take k, ?_, take_prefix _ _⟩
          rw [repliesOf, if_neg Bool.false_ne_true, headD_eq_head?_getD, hhd, Option.getD_some, nil_append]
        short := fun hshort => short_of_nick _ hnick hshort }

/-- with a longer nick the line of these capabilities is too long -/
theorem wide_long (hreq : (Message.getParam 0).equals l.name = true) (hcaps : l.caps s e Message = wideCaps)
    (hnamed : l = .ls ∨ l.multi s Message = true) (hnick : nickRoom l (l.multi s Message) < e.sNick.length) :
    ¬∃ replies, Answered l s e Message replies := by
  rintro ⟨replies, h⟩
  have hwords : ∀ sCap ∈ wideCaps, sCap ≠ [] ∧ sCap.length ≤ 400 := by decide +kernel
  have hpack : pack fits [] wideCaps = [wideCaps.take 2, wideCaps.drop 2] := by decide +kernel
  have hwide : (join (lit " ") (wideCaps.take 2)).length = 401 := by decide +kernel
  have hsent := handleCap_sent hreq fun sCap hcap => (hwords sCap (hcaps ▸ hcap)).1
  have hlines := append_cancel_left (h.sent.symm.trans hsent)
  rw [replyLines_eq e _ hnamed, hcaps] at hlines
  obtain ⟨r, hr, hgroup, hmore⟩ : ∃ r ∈ repliesOf l wideCaps (l.multi s Message), r.vsCaps = wideCaps.take 2 ∧
      r.bMore = l.multi s Message := by
    have hgroups : ∀ b, repliesOf l wideCaps b =
        if b then [⟨l.name, true, wideCaps.take 2⟩, ⟨l.name, false, wideCaps.drop 2⟩]
        else [⟨l.name, false, wideCaps.take 2⟩] := fun b => by simp only [repliesOf, hpack]; rfl
    rw [hgroups]
    cases l.multi s Message with
    | true => exact ⟨_, mem_cons_self, rfl, rfl⟩
    | false => exact ⟨_, mem_cons_self, rfl, rfl⟩
  have hmem := mem_map_of_mem (f := CapReply.line e) hr
  rw [← hlines] at hmem
  obtain ⟨r', hr', hline⟩ := mem_map.1 hmem
  have hshort := h.short (fun sCap hcap => (hwords sCap (hcaps ▸ hcap)).2) r' hr'
  rw [hline, length_line, repliesOf_name _ _ r hr, hgroup, hwide, hmore] at hshort
  rw [nickRoom] at hnick
  cases hmulti : l.multi s Message <;> rw [hmulti] at hshort hnick <;> simp [mark, lit] at hshort hnick <;> omega

/-- **When an answer is what it should be**, for every client whose nick has room: the request is LS or the client has said 302,
and the first of the capabilities has at most 400 bytes if there can be several lines. With a longer nick it is not for all
sets of capabilities that are in order otherwise. -/
theorem handleCap_listing_iff (hreq : (Message.getParam 0).equals l.name = true)
    (hcaps : ∀ sCap ∈ l.caps s e Message, sCap ≠ []) :
    (e.sNick.length ≤ nickRoom l (l.multi s Message) →
      ((∃ replies, Answered l s e Message replies) ↔ InOrder l s e Message)) ∧
    (nickRoom l (l.multi s Message) < e.sNick.length → InOrder l s e Message →
      ∃ s' e', e'.sNick = e.sNick ∧ l.multi s' Message = l.multi s Message ∧
        (∀ sCap ∈ l.caps s' e' Message, sCap ≠ []) ∧ InOrder l s' e' Message ∧
        ¬∃ replies, Answered l s' e' Message replies) := by
  refine ⟨answered_iff hreq hcaps, fun hnick h => ?_⟩
  obtain ⟨s', e', hsame, hmulti, hwide⟩ := caps_wide l s e Message
  have hnamed : l = .ls ∨ l.multi s' Message = true := hmulti ▸ h.named
  have hwords : ∀ sCap ∈ wideCaps, sCap ≠ [] ∧ sCap.length ≤ 400 := by decide +kernel
  refine ⟨s', e', hsame, hmulti, fun sCap hcap => (hwords sCap (hwide ▸ hcap)).1, ⟨hnamed, fun _ sCap hcap => ?_⟩,
    wide_long hreq hwide hnamed (by rwa [hsame, hmulti])⟩
  rw [hwide] at hcap
  exact (hwords sCap (mem_of_mem_head? hcap)).2

def capMessage (sLine : String) : CMessage :=
  (CMessage.ofLine CMessage.stoppedClock (lit sLine)).getD (CMessage.blank CMessage.stoppedClock)

/-- a new client asks for the capabilities -/
theorem handleCap_listing_302 : ∃ replies, Answered .ls .init plain (capMessage "CAP LS 302") replies := by
  have hcaps : ∀ sCap ∈ Listing.ls.caps .init plain (capMessage "CAP LS 302"), sCap ≠ [] ∧ sCap.length ≤ 400 := by
    decide +kernel
  have hiff := (handleCap_listing_iff (by decide +kernel) fun sCap h => (hcaps sCap h).1).1 (by decide +kernel)
  exact hiff.2 ⟨.inl rfl, fun _ sCap h => (hcaps sCap (mem_of_mem_head? h)).2⟩

/-- an older client asks what it has accepted: LISTS is the answer -/
theorem handleCap_lists : ¬∃ replies, Answered .list .init plain (capMessage "CAP LIST") replies := by
  intro ⟨replies, h⟩
  obtain ⟨vsCaps, rfl, hpre⟩ := h.single (by decide)
  obtain rfl : vsCaps = [] := prefix_nil.1 hpre
  have hline : (handleCap .init plain (capMessage "CAP LIST")).vsSent ≠
      [CapReply.line plain ⟨Listing.list.name, false, []⟩] := by decide +kernel
  exact hline h.sent

/-! ## Capabilities have names -/

theorem offer_named (s : ClientCaps.CClient) (e : Env)
    (hhook : ∀ ss, (∀ sCap ∈ ss, sCap ≠ []) → ∀ sCap ∈ e.onClientCapLs ss, sCap ≠ []) :
    ∀ sCap ∈ offer s e, sCap ≠ [] := by
  intro sCap h
  refine hhook _ (fun c hc => ?_) sCap (mem_filter.1 h).1
  rw [OrdSet.mem_ofList] at hc
  obtain ⟨core, hcore, rfl⟩ := mem_map.1 hc
  have hname : ∀ c ∈ mCoreCaps, c.1 ≠ [] := by decide
  split
  · exact fun h => hname core hcore (append_eq_nil_iff.1 (append_eq_nil_iff.1 h).1).1
  · exact hname core hcore

theorem change_named {c : CString × Bool} (h : c ∈ changes Message) (hon : c.2 = true) : c.1 ≠ [] := by
  obtain ⟨sToken, hmem, rfl⟩ := mem_map.1 h
  unfold change at hon ⊢
  split at hon
  · cases hon
  · rename_i hno
    rw [if_neg hno]
    exact (mem_split hmem).2.2 rfl

def Named (s : ClientCaps.CClient) : Prop := ∀ sCap ∈ s.ssAcceptedCaps, sCap ≠ []

theorem capReq_named {s : ClientCaps.CClient} (hs : Named s) (e : Env) (Message : CMessage) :
    Named (capReq s e Message) := by
  rcases capReq_spec s e Message with h | h
  · intro sCap hmem
    have hacc := h.accepted sCap
    rw [decide_eq_true hmem] at hacc
    cases hlast : LastWrite.lastWrite (fun k => decide (k = sCap)) (changes Message) with
    | none =>
      rw [hlast, Option.getD_none] at hacc
      exact hs sCap (of_decide_eq_true hacc.symm)
    | some bVal =>
      rw [hlast, Option.getD_some] at hacc
      obtain ⟨c, hc, hname, hval⟩ := LastWrite.mem_of_lastWrite hlast
      rw [← of_decide_eq_true hname]
      exact change_named hc (hval.trans hacc.symm)
  · rw [h.kept]
    exact hs

/-- **One step** accepts words only. -/
theorem exec_named {s : ClientCaps.CClient} (hs : Named s) (op : Op) : Named (exec s op) := by
  cases op with
  | cap e Message =>
    unfold exec handleCap
    dsimp only
    split_ifs
    · unfold capLs
      dsimp only
      split
      · obtain ⟨sent, hsent⟩ := respondLines_eq
          ({ { s with uCapVersion := max s.uCapVersion (Message.getParam 1).toUShort } with bInCap := true }.setFeature
            .capNotify true) e (lit "LS") (multiLine (offer
              { s with uCapVersion := max s.uCapVersion (Message.getParam 1).toUShort } e))
        rw [hsent]
        exact hs
      · exact hs
    · unfold capEnd
      dsimp only
      split <;> exact hs
    · exact capReq_named hs e Message
    · unfold capList
      dsimp only
      split
      · obtain ⟨sent, hsent⟩ := respondLines_eq s e (lit "LIST") (multiLine s.ssAcceptedCaps.toList)
        rw [hsent]
        exact hs
      · exact hs
    · exact hs
  | notify e sCap bValue sValue =>
    unfold exec notifyServerDependentCap
    dsimp only
    by_cases hnew : (bValue && sCap ∉ e.ssClientCapBlacklist) = true
    · rw [if_pos hnew]
      split_ifs <;> exact hs
    · rw [if_neg hnew]
      intro c hc
      split at hc <;> exact hs c ((OrdSet.mem_erase _ _ _).1 hc).2
  | protoctl Message =>
    rw [exec, protoctl_eq]
    exact hs
  | authenticate sSASLMechanism sSASLBuffer => exact hs

theorem accepted_named (ops : List Op) : Named (run .init ops) := by
  suffices h : ∀ s, Named s → Named (run s ops) from h .init fun sCap h => absurd h (by simp [init])
  induction ops with
  | nil => exact fun s hs => hs
  | cons op ops ih => exact fun s hs => ih _ (exec_named hs op)

end ZNC.CapReplies
