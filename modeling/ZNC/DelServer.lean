/-
Deleting a server by its line: `DelServer` of `src/IRCNetwork.cpp` with the line of `GetString`.

A line names servers rather than one server. The port 6667 stands for any port, since it is what a line without a port
is read as, so a port 6667 that was given is lost, and no password for any password; SSL is not looked at. Of the servers
that it names the first one goes.

Results:
- `names_iff`: which servers a line names;
- `delServer_line_iff`: when the line of a server deletes that server and no other;
- `delServer_default_port`: a list in which it does not.
-/
import ZNC.ServerLine

namespace ZNC

open CString NetworkClone

/-! ## Statement -/

/-- the line `Server` names the server `pServer` -/
structure CServer.Named (Server pServer : CServer) : Prop where
  name : pServer.sName.equals Server.sName = true
  unixSocket : Server.bUnixSocket = true → pServer.bUnixSocket = true
  port : Server.uPort = 6667 ∨ pServer.uPort = Server.uPort
  pass : Server.sPass = [] ∨ pServer.sPass = Server.sPass

/-- the line that is put together from a server, as it is read -/
def CServer.line (pServer : CServer) : CServer := CServer.parse (getString pServer true)

namespace ServerList

/-- the servers in front of `pServer` -/
def before (s : ServerList) (pServer : CServer) : List CServer := s.vServers.takeWhile fun x => x ≠ pServer

/-! ## The first match -/

theorem names_iff (Server pServer : CServer) : Server.names pServer = true ↔ Server.Named pServer := by
  have hall : Server.names pServer = true ↔ pServer.sName.equals Server.sName = true ∧
      (Server.bUnixSocket = true → pServer.bUnixSocket = true) ∧
      (Server.uPort = 6667 ∨ pServer.uPort = Server.uPort) ∧ (Server.sPass = [] ∨ pServer.sPass = Server.sPass) := by
    unfold CServer.names
    cases pServer.bUnixSocket <;> cases Server.bUnixSocket <;> simp [and_assoc, or_iff_not_imp_left]
  rw [hall]
  exact ⟨fun ⟨h1, h2, h3, h4⟩ => ⟨h1, h2, h3, h4⟩, fun ⟨h1, h2, h3, h4⟩ => ⟨h1, h2, h3, h4⟩⟩

theorem delServer_vServers (s : ServerList) (Server : CServer) :
    (s.delServer Server).vServers = s.vServers.eraseP Server.names := by
  rw [List.eraseP_eq_eraseIdx, delServer]
  cases s.vServers.findIdx? Server.names <;> rfl

theorem eraseP_eq_erase_iff {α : Type} [DecidableEq α] {l : List α} (hl : l.Nodup) {x : α} (hx : x ∈ l) (p : α → Bool) :
    l.eraseP p = l.erase x ↔ p x = true ∧ ∀ y ∈ l.takeWhile (fun y => y ≠ x), p y = false := by
  induction l with
  | nil => cases hx
  | cons a l ih =>
    obtain ⟨ha, hl⟩ := List.nodup_cons.1 hl
    have hleave : ∀ l' : List α, a :: l' ≠ l := fun l' h => ha (h ▸ List.mem_cons_self)
    by_cases hax : a = x
    · subst hax
      rw [List.erase_cons_head, List.takeWhile_cons_of_neg (by simp)]
      cases hp : p a with
      | true => simp [hp]
      | false => simp [hp, hleave]
    · have hxl : x ∈ l := (List.mem_cons.1 hx).resolve_left (Ne.symm hax)
      rw [List.erase_cons_tail (by simpa using hax), List.takeWhile_cons_of_pos (by simpa using hax)]
      cases hp : p a with
      | true => simp [hp, (hleave _).symm]
      | false => simp [hp, ih hl hxl]

/-! ## The line of a server -/

theorem named_refl (Server : CServer) : Server.Named Server := ⟨decide_eq_true rfl, id, .inr rfl, .inr rfl⟩

/-- **The line of a server** deletes that server and no other exactly if it names the server and none in front of it; the line of
a server that was read from a line that reads back is that server again, and names it. -/
theorem delServer_line_iff (s : ServerList) {pServer : CServer} (h : pServer ∈ s.vServers) :
    ((s.delServer pServer.line).vServers = s.vServers.erase pServer ↔
      pServer.line.Named pServer ∧ ∀ x ∈ s.before pServer, ¬pServer.line.Named x) ∧
      ∀ sLine, KeepsServer sLine → pServer = CServer.parse sLine → pServer.line = pServer ∧ pServer.Named pServer := by
  constructor
  · rw [delServer_vServers, eraseP_eq_erase_iff s.nodup h, names_iff]
    refine and_congr_right fun _ => forall₂_congr fun x _ => ?_
    rw [← names_iff, Bool.not_eq_true]
  · rintro sLine hkeeps rfl
    exact ⟨(server_round_trip_iff sLine).2 hkeeps, named_refl _⟩

/-- a network with a server on two ports -/
def twoPorts : ServerList :=
  (ServerList.initial.addServer (.parse (lit "irc.example.net +6697"))).addServer (.parse (lit "irc.example.net 6667"))

/-- the first of them is deleted by its line -/
theorem delServer_line_first :
    (twoPorts.delServer (CServer.parse (lit "irc.example.net +6697")).line).vServers =
      twoPorts.vServers.erase (.parse (lit "irc.example.net +6697")) := by
  have hkeeps : KeepsServer (lit "irc.example.net +6697") := by decide +kernel
  have hfirst : twoPorts.before (.parse (lit "irc.example.net +6697")) = [] := by decide +kernel
  have hmem : CServer.parse (lit "irc.example.net +6697") ∈ twoPorts.vServers := by decide +kernel
  obtain ⟨hiff, hself⟩ := delServer_line_iff twoPorts hmem
  obtain ⟨hline, hnamed⟩ := hself _ hkeeps rfl
  refine hiff.2 ⟨by rwa [hline], fun x hx => ?_⟩
  rw [hfirst] at hx
  cases hx

/-- **The default port**: the line of the second one deletes the first. -/
theorem delServer_default_port :
    CServer.parse (lit "irc.example.net 6667") ∈ twoPorts.vServers ∧
      (twoPorts.delServer (CServer.parse (lit "irc.example.net 6667")).line).vServers =
        [CServer.parse (lit "irc.example.net 6667")] ∧
      (twoPorts.delServer (CServer.parse (lit "irc.example.net 6667")).line).vServers ≠
        twoPorts.vServers.erase (.parse (lit "irc.example.net 6667")) := by
  decide +kernel

end ServerList

end ZNC
