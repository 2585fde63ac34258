import DnsClient.Proofs.Engine.Lives

/-!
Between any two operations nothing is lost, and nothing leaks.

Once the agenda is empty, no query is about to fail and none is about to start; then the tracked
queries are those without outcome, and the others are closed (`Tracks`). A closed query needs nothing
of the network, so all the calls made for it, from its submission on, have left the network with
nothing (`Course.held`).
-/

namespace DnsClient

open Program

namespace Engine

variable {c : Config} {e : Engine} {id : QueryId} {s : Slot} {t : List Event} {ms : List Moment}

/-- Whether the query has no outcome. -/
def isPending (e : Engine) (id : QueryId) : Bool := ((e.slot? id).bind (·.cell.outcome?)).isNone

/-- Some calls among these have made the query what it is, and the network holds nothing of them: no
socket is open, and none is registered. -/
def GivenUp (t : List Event) (id : QueryId) (q : Query) : Prop :=
  ∃ (x : Submission) (vs : List Query.Visit), Query.Visits (x.query id) vs q ∧
    (Query.eventsOf vs).Sublist t ∧ Holdings.account.afterAll {} (Query.eventsOf vs) = {}

/-- Nothing is lost, and nothing leaks, after these calls. -/
structure Balanced (t : List Event) (e : Engine) : Prop where
  distinct : e.handles.Nodup
  /-- The tracked queries are those that were submitted and have no outcome. -/
  tracked : ∀ id, id ∈ e.tracked ↔ id ∈ e.handles ∧ e.isPending id
  /-- They are the ones that have a deadline. -/
  live : ∀ id, e.schedule.live.contains id ↔ id ∈ e.tracked
  pending : e.pending = (e.handles.filter e.isPending).length
  idle : ∀ id ∈ e.tracked, ∀ s, e.slot? id = some s → s.query.phase = .idle →
    e.incoming.count id = 1
  released : ∀ id s, e.slot? id = some s → id ∉ e.tracked →
    s.query.phase = .closed ∧ s.query.phase.socket? = none ∧ s.query.registered = false
  /-- Nor does the network keep anything of a query that is done. -/
  network : ∀ id s, e.slot? id = some s → id ∉ e.tracked → GivenUp t id s.query

lemma Tracks.tracked_iff (h : Tracks [] e) (id : QueryId) :
    id ∈ e.tracked ↔ id ∈ e.handles ∧ e.isPending id := by
  rw [h.tracked, h.slot, isPending]
  cases hs : e.slot? id with
  | none => simp
  | some s => simp [condemned]

lemma Tracks.pending_eq (h : Tracks [] e) :
    e.pending = (e.handles.filter e.isPending).length := by
  have hp := List.perm_ext_iff_of_nodup h.tracked_nodup (h.handles_nodup.filter e.isPending)
  refine (hp.2 fun id => ?_).length_eq
  rw [h.tracked_iff, List.mem_filter]

lemma Course.givenUp (hc : Course (ofConfig c) ms [] e) (hs : e.slot? id = some s)
    (hi : id ∉ e.tracked) : GivenUp (callsOf ms) id s.query := by
  have hm : id ∈ e.handles := (hc.tracks.slot id).2 ⟨s, hs⟩
  obtain ⟨h, hh⟩ := List.mem_iff_getElem?.1 hm
  obtain ⟨x, vs, -, hv, hvs, hn⟩ := hc.held hh hs
  obtain ⟨hp, -⟩ := hc.tracks.closed id s hs hi fun hm => by cases hm
  rw [hp] at hn
  exact ⟨x, vs, hv, hvs, hn⟩

lemma Course.balanced (hc : Course (ofConfig c) ms [] e) : Balanced (callsOf ms) e where
  distinct := hc.tracks.handles_nodup
  tracked := hc.tracks.tracked_iff
  live id := by rw [← hc.tracks.live, Table.contains, Option.isSome_iff_exists]
  pending := hc.tracks.pending_eq
  idle := by
    intro id hi s hs hp
    rw [hc.tracks.incoming_nodup.count, if_pos]
    exact (hc.tracks.idle id hi s hs hp).resolve_right fun hm => by cases hm
  released := by
    intro id s hs hi
    obtain ⟨hp, hr⟩ := hc.tracks.closed id s hs hi fun hm => by cases hm
    exact ⟨hp, by rw [hp]; rfl, hr⟩
  network _ _ hs hi := hc.givenUp hs hi

/-- **Tracking**: whatever is asked of an engine, whatever its loops see and whatever its calls
answer, between any two of these nothing is lost and nothing leaks. -/
theorem balanced_of_reached (h : Reached c t e) : Balanced t e := by
  obtain ⟨cs, hf⟩ := h.follows
  obtain ⟨ms, hc, rfl⟩ := course_iff.2 ⟨cs, hf⟩
  exact hc.balanced

/-- A query that is cancelled while its stream connects is not tracked any more. -/
theorem balanced_of_reached_cancel : ∃ (c : Config) (t : List Event) (e : Engine),
    Reached c t e ∧ e.handles = [0] ∧ e.tracked = [] ∧ Balanced t e := by
  let server : SocketAddress := ⟨.localhost, 53⟩
  let submit : List Event := [⟨.now, 5⟩, ⟨.wake, ()⟩]
  let connect : List Event := [⟨.bindUdp .ipv4, .error ⟨.addrInUse, "in use"⟩⟩,
    ⟨.connectTcp server, .ok 1⟩, ⟨.wake, ()⟩, ⟨.register ⟨.tcp, 1⟩ 0 .writable, .ok ()⟩]
  let cancel : List Event := [⟨.wake, ()⟩, ⟨.deregister ⟨.tcp, 1⟩, .ok ()⟩, ⟨.close ⟨.tcp, 1⟩, ()⟩,
    ⟨.wake, ()⟩, ⟨.reply (.cancelled 0 true), ()⟩]
  have h₁ := (Reached.new (c := {})).cue (k := .submit .blank { server }) (u := submit)
    (.call _ (.call _ (.pure _)))
  have h₂ := h₁.cue (k := .start 0) (u := connect) (.call _ (.call _ (.call _ (.call _ (.pure _)))))
  have h₃ := h₂.cue (k := .request (.cancel 0)) (u := cancel)
    (.call _ (.call _ (.call _ (.call _ (.call _ (.pure _))))))
  exact ⟨_, _, _, h₃, rfl, rfl, balanced_of_reached h₃⟩

end Engine

end DnsClient
