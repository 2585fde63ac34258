import DnsClient.Proofs.Engine.Outcome
import DnsClient.Proofs.Query.Response

/-!
Where the responses come from that a query reports and an engine hands out.

A query reports a response that the calls of its run have brought. The response of an engine is one
that its query reported, in a run whose calls are among those of the engine.
-/

namespace DnsClient

open Program

/-- The octets are nothing that may end a query over UDP: no message, or one with another ID, or one
that was cut short. -/
def Unusable (request : Message) (o : Octets) : Prop :=
  o.length < headerLength ∨
    ∃ m : Message, m.octets = o ∧ (m.id ≠ request.id ∨ m.isTruncated = true)

/-- The response to a request is sound, given all calls that it may have come from. -/
structure Sound (request : Message) (params : QueryParams) (t : List Event) (m : Message) :
    Prop where
  long : headerLength ≤ m.octets.length
  id : m.id = request.id
  source : FromDatagram params t m ∨ FromStream params t m
  /-- An unusable datagram leaves the stream as the one source. -/
  unusable : ∀ o ∈ datagrams t, Unusable request o → FromStream params t m

namespace Query

variable {request m : Message} {params : QueryParams} {t : List Event}

lemma Sourced.sound (h : Sourced request params t m) : Sound request params t m := by
  refine ⟨m.length_ge, h.id, h.source, fun o ho hu => h.source.resolve_left fun hd => ?_⟩
  rw [hd.only, List.mem_singleton] at ho
  subst ho
  rcases hu with hl | ⟨n, hn, hr⟩
  · exact absurd m.length_ge (Nat.not_le.2 hl)
  · obtain rfl : n = m := Message.ext hn
    rcases hr with hi | ht
    · exact hi h.id
    · rw [hd.whole] at ht
      cases ht

/-- A query that starts fresh reports sound responses. -/
lemma Visits.sound {id : QueryId} {vs : List Visit} {q : Query} {v : Visit}
    (h : Visits { id, request, params } vs q) (hv : v ∈ vs) (hm : v.step = .done (.ok m)) :
    Sound request params (eventsOf vs) m := by
  have hb := h.brings (t := []) rfl
  exact (hb.2 v hv m hm).sound

end Query

/-- **Soundness of responses**: whatever the calls answer, a query reports sound responses to its
request, and an engine hands them out to whoever submitted it. -/
theorem response_sound :
    (∀ {id : QueryId} {request m : Message} {params : QueryParams} {vs : List Query.Visit}
        {q : Query}, Query.Visits { id, request, params } vs q →
      ∀ v ∈ vs, v.step = .done (.ok m) → Sound request params (Query.eventsOf vs) m) ∧
    ∀ {c : Config} {ms : List Engine.Moment} {ts : List Task} {e : Engine} {h : Nat}
        {x : Submission} {m : Message}, Engine.Course (.ofConfig c) ms ts e →
      (Engine.submissions ms)[h]? = some x → e.outcome? h = some (.response m) →
      ∃ t, t.Sublist (Engine.callsOf ms) ∧ Sound x.request x.params t m := by
  refine ⟨fun h v hv hm => h.sound hv hm, fun hc hx ho => ?_⟩
  obtain ⟨r, hr, hrep⟩ := hc.reported hx ho (by simp) (by simp) (by simp)
  cases hrep with
  | @mk a id s vs b q ha hi hs hv ht hn ho' =>
    cases r with
    | error y => cases hr
    | ok m' =>
      cases hr
      exact ⟨_, ht, hv.sound (List.mem_append_right _ (List.mem_singleton_self _)) rfl⟩

/-- A query that is answered over UDP, alone and in an engine. -/
theorem response_sound_datagram :
    ∃ (x : Submission) (m : Message) (vs : List Query.Visit) (q : Query)
      (ms : List Engine.Moment) (e : Engine),
      Query.Visits (x.query 0) vs q ∧ vs.map (·.step) = [.pending, .pending, .done (.ok m)] ∧
      Engine.Course (.ofConfig {}) ms [] e ∧ (Engine.submissions ms)[0]? = some x ∧
      e.outcome? 0 = some (.response m) ∧ Sound x.request x.params (Query.eventsOf vs) m ∧
      ∃ t, t.Sublist (Engine.callsOf ms) ∧ Sound x.request x.params t m := by
  let server : SocketAddress := ⟨.localhost, 53⟩
  let bind : List Event := [⟨.bindUdp .ipv4, .ok 1⟩, ⟨.connectUdp 1 server, .ok ()⟩,
    ⟨.wake, ()⟩, ⟨.register ⟨.udp, 1⟩ 0 .writable, .ok ()⟩]
  let send : List Event := [⟨.sendUdp 1 Message.blank.octets, .ok ⟨12, by decide⟩⟩, ⟨.wake, ()⟩,
    ⟨.reregister ⟨.udp, 1⟩ 0 .readable, .ok ()⟩]
  let receive : List Event := [⟨.recvUdp 1 1232, .ok ⟨Message.blank.octets, by decide⟩⟩,
    ⟨.wake, ()⟩, ⟨.deregister ⟨.udp, 1⟩, .ok ()⟩, ⟨.close ⟨.udp, 1⟩, ()⟩]
  have hv : Query.Visits { id := 0, request := .blank, params := { server } } _ _ :=
    .cons (a := .start) (t := bind) (.call _ (.call _ (.call _ (.call _ (.pure _)))))
    <| .cons (a := .ready) (t := send) (.call _ (.call _ (.call _ (.pure _))))
    <| .cons (a := .ready) (t := receive) (.call _ (.call _ (.call _ (.call _ (.pure _))))) (.nil _)
  have hs : Yields ((Engine.ofConfig {}).cue (.submit .blank { server })) [⟨.now, 5⟩, ⟨.wake, ()⟩]
    ([], _) := .call _ (.call _ (.pure _))
  have hc := (Engine.Course.nil.cue hs).cue (c := .start 0) (.pure _)
  have hc := hc.task (t := bind) (.call _ (.call _ (.call _ (.call _ (.pure _)))))
  have hc := hc.cue (c := .dispatch 0) (.pure _)
  have hc := hc.task (t := send) (.call _ (.call _ (.call _ (.pure _))))
  have hc := hc.cue (c := .dispatch 0) (.pure _)
  have hc := hc.task (t := receive) (.call _ (.call _ (.call _ (.call _ (.pure _)))))
  refine ⟨⟨.blank, { server }, 5⟩, .blank, _, _, _, _, hv, rfl, hc, rfl, rfl, ?_, ?_⟩
  · exact response_sound.1 hv _ (List.mem_of_getElem? (i := 2) rfl) rfl
  · exact response_sound.2 (h := 0) hc rfl rfl

end DnsClient
