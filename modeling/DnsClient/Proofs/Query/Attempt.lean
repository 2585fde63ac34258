import DnsClient.Proofs.Query.Stream

/-!
What a query does while it is on UDP.

A call either leaves the query on UDP, or brings the answer, or puts an end to the attempt. In the
last case one of the events of the call shows why (`Event.endsUdp`), and all that comes after it is
the start over TCP.
-/

namespace DnsClient

open Program

/-- Whether the octets are a reply to the request that a query may end with over UDP. -/
def Message.accepts (request : Message) (o : Octets) : Bool :=
  match Message.ofOctets? o with
  | none => false
  | some m => m.id = request.id ∧ m.isTruncated = false

/-- Whether the event ends the UDP attempt of a query in any way but with the answer. -/
def Program.Event.endsUdp (request : Message) : Event → Bool
  | ⟨.bindUdp _, .error _⟩ | ⟨.connectUdp .., .error _⟩ => true
  | ⟨.register s .., .error _⟩ | ⟨.reregister s .., .error _⟩ => s.transport = .udp
  | ⟨.sendUdp _ o, .ok k⟩ => k.1 ≠ o.length
  | ⟨.sendUdp .., .error e⟩ | ⟨.recvUdp .., .error e⟩ => !e.isRetry
  | ⟨.recvUdp .., .ok o⟩ => !request.accepts o.1
  | _ => false

/-- What is left to do once, up to the phases of rank `k`. -/
def Phase.allowance (k : Nat) (p : Phase) : Nat := if p.rank ≤ k then 1 else 0

lemma Phase.allowance_anti {k : Nat} {p p' : Phase} (h : p.rank ≤ p'.rank) :
    p'.allowance k ≤ p.allowance k := by
  unfold allowance
  split <;> split <;> omega

lemma Phase.allowance_le_one {k : Nat} (p : Phase) : p.allowance k ≤ 1 := by
  unfold allowance
  split <;> decide

lemma Phase.allowance_eq_zero {k : Nat} {p : Phase} (h : k < p.rank) : p.allowance k = 0 :=
  if_neg (by omega)

lemma Phase.allowance_eq_one {k : Nat} {p : Phase} (h : p.rank ≤ k) : p.allowance k = 1 :=
  if_pos h

namespace Query

/-- Events of a call that takes the query over UDP to the phase `p`, or to its end there. -/
structure UdpPart (q : Query) (p : Phase) (u : List Event) : Prop where
  purpose : ∀ w ∈ u, w.1.purpose = .upkeep ∨ w.1.purpose = .datagram
  binds : (udpBinds u).length + p.allowance 0 ≤ q.phase.allowance 0
  sends : (udpSends u).length + p.allowance 1 ≤ q.phase.allowance 1
  request : ∀ o ∈ udpSends u, o = q.request.octets
  server : ∀ n a x, (⟨.connectUdp n a, x⟩ : Event) ∈ u → a = q.params.server

/-- What a call can come to while the query is on UDP. -/
inductive Attempt (q : Query) : List Event → Step × Query → Prop where
  | goesOn {u : List Event} {q' : Query} {n : Nat} (hu : UdpPart q q'.phase u)
      (hd : datagrams u = []) (he : ∀ w ∈ u, w.endsUdp q.request = false) (hs : q.Same q')
      (hr : q.phase.rank ≤ q'.phase.rank) (hp : q'.phase.socket? = some ⟨.udp, n⟩)
      (hn : q.phase.socket? = some ⟨.udp, n⟩ ∨ ∃ f, (⟨.bindUdp f, .ok n⟩ : Event) ∈ u) :
      Attempt q u (.pending, q')
  | succeeds {v : List Event} {n : Nat} {m : Message} (hp : q.phase = .udpRead n) (o)
      (hm : Message.ofOctets? o.1 = some m) (hi : m.id = q.request.id)
      (ht : m.isTruncated = false) (hv : Quiet v) :
      Attempt q (⟨.recvUdp n q.params.payloadSize.toNat, .ok o⟩ :: v) (.done (.ok m), q.close)
  | ends {u v : List Event} {q' : Query} {r : Step × Query} (hu : UdpPart q .closed u)
      (hd : ∀ o ∈ datagrams u, q.request.accepts o = false)
      (he : ∃ w ∈ u, w.endsUdp q.request) (h : Yields q'.tcpConnect v r) (hs : q.Same q') :
      Attempt q (u ++ v) r

variable {t u v : List Event} {q q' : Query} {r : Step × Query} {i : Interest} {n : Nat}

lemma UdpPart.append {p p' : Phase} (hu : UdpPart q p u) (hv : UdpPart { q with phase := p } p' v) :
    UdpPart q p' (u ++ v) where
  purpose := List.forall_mem_append.2 ⟨hu.purpose, hv.purpose⟩
  binds := by
    have h1 := hu.binds
    have h2 := hv.binds
    simp at h1 h2 ⊢
    omega
  sends := by
    have h1 := hu.sends
    have h2 := hv.sends
    simp at h1 h2 ⊢
    omega
  request := by
    rw [udpSends_append]
    exact List.forall_mem_append.2 ⟨hu.request, hv.request⟩
  server n a x h := (List.mem_append.1 h).elim (hu.server n a x) (hv.server n a x)

lemma UdpPart.closed {p : Phase} (hu : UdpPart q p u) : UdpPart q .closed u :=
  { hu with
    binds := Nat.le_trans (Nat.add_le_add_left (Nat.zero_le _) _) hu.binds
    sends := Nat.le_trans (Nat.add_le_add_left (Nat.zero_le _) _) hu.sends }

/-! ### Functions of the UDP phases -/

/-- The trace of registering a UDP socket, up to a start over TCP. -/
lemma yields_armUdp (hs : q.phase.socket? = some ⟨.udp, n⟩) (h : Yields (q.armUdp i) t r) :
    ∃ u v, t = u ++ v ∧ UdpPart q q.phase u ∧ datagrams u = [] ∧
      ((v = [] ∧ (∀ w ∈ u, w.endsUdp q.request = false) ∧
          r = (.pending, { q with registered := true })) ∨
        (∃ w ∈ u, w.endsUdp q.request) ∧
          ∃ e, Yields (q.fallback (some (.register e))) v r) := by
  obtain ⟨_, x, v, ha, hr, rfl⟩ := yields_bind.1 h
  obtain ⟨w, y, rfl, hw, rfl⟩ := yields_arm hs ha
  refine ⟨_, v, rfl, ?_, ?_, ?_⟩
  · obtain ⟨c, z⟩ := w
    cases c <;> simp [Event.arming?] at hw
    all_goals
      obtain ⟨rfl, -⟩ := hw
      constructor <;> simp [Call.purpose, udpBinds, udpSends]
  · obtain ⟨c, z⟩ := w
    cases c <;> simp [Event.arming?] at hw <;> rfl
  · cases y with
    | ok _ =>
      obtain ⟨rfl, rfl⟩ := yields_pure.1 hr
      refine .inl ⟨rfl, ?_, rfl⟩
      obtain ⟨c, z⟩ := w
      cases c <;> simp [Event.arming?] at hw
      all_goals simp [Event.endsUdp, hw]
    | error e =>
      refine .inr ⟨⟨w, by simp, ?_⟩, e, hr⟩
      obtain ⟨c, z⟩ := w
      cases c <;> simp [Event.arming?] at hw
      all_goals simp [Event.endsUdp, hw]

/-- The events before a start over TCP are all that is done over UDP in the call. -/
lemma attempt_fallback {e : Option QueryError} (hu : UdpPart q .closed u)
    (hd : ∀ o ∈ datagrams u, q.request.accepts o = false) (he : ∃ w ∈ u, w.endsUdp q.request)
    (h : Yields (q.fallback e) v r) : Attempt q (u ++ v) r :=
  .ends hu hd he h ⟨rfl, rfl, rfl⟩

/-- Registering the socket is the last thing done over UDP in the call. -/
lemma attempt_armUdp {p : Phase} (hu : UdpPart q p u) (hd : datagrams u = [])
    (he : ∀ w ∈ u, w.endsUdp q.request = false) (hr : q.phase.rank ≤ p.rank)
    (hp : p.socket? = some ⟨.udp, n⟩)
    (hn : q.phase.socket? = some ⟨.udp, n⟩ ∨ ∃ f, (⟨.bindUdp f, .ok n⟩ : Event) ∈ u)
    (h : Yields (armUdp { q with phase := p } i) v r) : Attempt q (u ++ v) r := by
  obtain ⟨u', v', rfl, hu', hd', ⟨rfl, he', rfl⟩ | ⟨⟨w, hw, he'⟩, e, hf⟩⟩ := yields_armUdp hp h
  · rw [List.append_nil]
    refine .goesOn (hu.append hu') ?_ ?_ ⟨rfl, rfl, rfl⟩ hr hp ?_
    · rw [datagrams_append, hd, hd', List.append_nil]
    · exact List.forall_mem_append.2 ⟨he, he'⟩
    · exact hn.imp_right fun ⟨f, hf⟩ => ⟨f, List.mem_append_left _ hf⟩
  · rw [← List.append_assoc]
    refine .ends (hu.append hu').closed ?_ ⟨w, List.mem_append_right _ hw, he'⟩ hf ⟨rfl, rfl, rfl⟩
    rw [datagrams_append, hd, hd']
    simp

lemma attempt_udpConnect (hp : q.phase = .idle) (h : Yields q.udpConnect t r) :
    Attempt q t r := by
  obtain ⟨x, u, rfl, hu⟩ := yields_perform_bind.1 h
  cases x with
  | error e =>
    refine attempt_fallback (u := [_]) ?_ (by simp [datagrams]) (by simp [Event.endsUdp]) hu
    constructor <;>
      simp +contextual [Call.purpose, udpBinds, udpSends, Phase.allowance, hp, Phase.rank]
  | ok n =>
    obtain ⟨y, v, rfl, hv⟩ := yields_perform_bind.1 hu
    cases y with
    | error e =>
      obtain ⟨z, w, rfl, hw⟩ := yields_perform_bind.1 hv
      refine attempt_fallback (u := [_, _, _]) ?_ (by simp [datagrams]) (by simp [Event.endsUdp]) hw
      constructor <;>
        simp +contextual [Call.purpose, udpBinds, udpSends, Phase.allowance, hp, Phase.rank]
    | ok _ =>
      refine attempt_armUdp (u := [_, _]) (p := .udpWrite n) (n := n) ?_ (by simp [datagrams])
        (by simp [Event.endsUdp]) (by simp [hp, Phase.rank]) rfl
        (.inr ⟨q.params.server.family, by simp⟩) hv
      constructor <;>
        simp +contextual [Call.purpose, udpBinds, udpSends, Phase.allowance, hp, Phase.rank]

lemma attempt_udpWrite (hp : q.phase = .udpWrite n) (h : Yields (q.udpWrite n) t r) :
    Attempt q t r := by
  obtain ⟨x, u, rfl, hu⟩ := yields_perform_bind.1 h
  have hs : q.phase.socket? = some ⟨.udp, n⟩ := by rw [hp]; rfl
  cases x with
  | ok k =>
    simp only at hu
    split at hu
    · next hk =>
      refine attempt_armUdp (u := [_]) (p := .udpRead n) (n := n) ?_ (by simp [datagrams])
        (by simp [Event.endsUdp, hk]) (by simp [hp, Phase.rank]) rfl (.inl hs) hu
      constructor <;> simp [Call.purpose, udpBinds, udpSends, Phase.allowance, hp, Phase.rank]
    · next hk =>
      refine attempt_fallback (u := [_]) ?_ (by simp [datagrams]) (by simp [Event.endsUdp, hk]) hu
      constructor <;> simp [Call.purpose, udpBinds, udpSends, Phase.allowance, hp, Phase.rank]
  | error e =>
    simp only at hu
    split at hu
    · next he =>
      refine attempt_armUdp (u := [_]) (p := q.phase) (n := n) ?_ (by simp [datagrams])
        (by simp [Event.endsUdp, he]) (Nat.le_refl _) hs (.inl hs) hu
      constructor <;> simp [Call.purpose, udpBinds, udpSends]
    · next he =>
      refine attempt_fallback (u := [_]) ?_ (by simp [datagrams]) (by simp [Event.endsUdp, he]) hu
      constructor <;> simp [Call.purpose, udpBinds, udpSends, Phase.allowance, hp, Phase.rank]

lemma attempt_udpRead (hp : q.phase = .udpRead n) (h : Yields (q.udpRead n) t r) :
    Attempt q t r := by
  obtain ⟨x, u, rfl, hu⟩ := yields_perform_bind.1 h
  have hs : q.phase.socket? = some ⟨.udp, n⟩ := by rw [hp]; rfl
  -- a receive is neither a bind nor a send
  have part (p : Phase) (hl : p.allowance 0 ≤ q.phase.allowance 0)
      (hl' : p.allowance 1 ≤ q.phase.allowance 1) :
      UdpPart q p [⟨.recvUdp n q.params.payloadSize.toNat, x⟩] := by
    constructor <;> simp [Call.purpose, udpBinds, udpSends, hl, hl']
  cases x with
  | ok o =>
    simp only [udpReply] at hu
    split at hu
    · next hm =>
      have ha : q.request.accepts o.1 = false := by simp [Message.accepts, hm]
      exact attempt_fallback (part _ (Nat.zero_le _) (Nat.zero_le _))
        (by simpa [datagrams] using ha) (by simpa [Event.endsUdp] using ha) hu
    · next m hm =>
      split at hu
      · next hi =>
        have ha : q.request.accepts o.1 = false := by simp [Message.accepts, hm, hi]
        exact attempt_fallback (part _ (Nat.zero_le _) (Nat.zero_le _))
          (by simpa [datagrams] using ha) (by simpa [Event.endsUdp] using ha) hu
      · next hi =>
        split at hu
        · next ht =>
          have ha : q.request.accepts o.1 = false := by simp [Message.accepts, hm, ht]
          exact attempt_fallback (part _ (Nat.zero_le _) (Nat.zero_le _))
            (by simpa [datagrams] using ha) (by simpa [Event.endsUdp] using ha) hu
        · next ht =>
          obtain ⟨hv, rfl⟩ := yields_succeed hu
          exact .succeeds hp o hm (by simpa using hi) (by simpa using ht) hv
  | error e =>
    simp only at hu
    split at hu
    · next he =>
      exact attempt_armUdp (part q.phase (Nat.le_refl _) (Nat.le_refl _)) (by simp [datagrams])
        (by simp [Event.endsUdp, he]) (Nat.le_refl _) hs (.inl hs) hu
    · next he =>
      exact attempt_fallback (part _ (Nat.zero_le _) (Nat.zero_le _)) (by simp [datagrams])
        (by simp [Event.endsUdp, he]) hu

end Query

end DnsClient
