import DnsClient.Proofs.Query.Visits

/-!
Where the response of a query comes from.

While a query is on UDP, its run holds no datagram yet, as the first one puts an end to that.
While it is on a stream, the octets read so far are those that its reader took in (`Holds`). So a
response is the one datagram of the run, or the message that all octets read frame.
-/

namespace DnsClient

open Program

/-! ### Messages on a stream -/

/-- The octets are the length of a message in two octets, and then the message. -/
def Framed (o body : Octets) : Prop :=
  ∃ size : Octets, size.length = 2 ∧ Octets.toNat size = body.length ∧ o = size ++ body

namespace StreamReader

/-- The reader has taken in these octets, and more are to come. -/
def Holds (o : Octets) : StreamReader → Prop
  | .length got => o = got ∧ got.length < 2
  | .body size got =>
    ∃ p : Octets, p.length = 2 ∧ Octets.toNat p = size ∧ o = p ++ got ∧ got.length < size

lemma holds_start : start.Holds [] := ⟨rfl, by decide⟩

/-- A read that fits into the room takes the reader on, or completes the message. -/
lemma Holds.advance {o x : Octets} {reader : StreamReader} (h : reader.Holds o)
    (hx : x.length ≤ reader.room) :
    match reader.advance x with
    | .inl m => Framed (o ++ x) m
    | .inr reader => reader.Holds (o ++ x) := by
  cases reader with
  | length got =>
    obtain ⟨rfl, hl⟩ := h
    simp only [room] at hx
    have ha : (o ++ x).length ≤ 2 := by
      rw [List.length_append]
      omega
    simp only [StreamReader.advance]
    split
    · next m hb =>
      split_ifs at hb with h2 h0
      cases hb
      exact ⟨o ++ x, by omega, h0, (List.append_nil _).symm⟩
    · next reader hr =>
      split_ifs at hr with h2 h0
      · cases hr
        exact ⟨rfl, h2⟩
      · cases hr
        exact ⟨o ++ x, by omega, rfl, (List.append_nil _).symm, Nat.pos_of_ne_zero h0⟩
  | body size got =>
    obtain ⟨p, hp, hs, rfl, hl⟩ := h
    simp only [room] at hx
    have ha : (got ++ x).length ≤ size := by
      rw [List.length_append]
      omega
    simp only [StreamReader.advance]
    split
    · next m hb =>
      split_ifs at hb with h2
      cases hb
      exact ⟨p, hp, by omega, List.append_assoc ..⟩
    · next reader hr =>
      split_ifs at hr with h2
      cases hr
      exact ⟨p, hp, hs, List.append_assoc .., h2⟩

end StreamReader

/-! ### Sources -/

/-- The message is the one datagram of a run, received on the socket that the run bound, whole as
the buffer held it and not cut short; and no connection is begun. -/
structure FromDatagram (params : QueryParams) (t : List Event) (m : Message) : Prop where
  mode : params.mode = .preferUdp
  received : ∃ n f o, (⟨.bindUdp f, .ok n⟩ : Event) ∈ t ∧
    (⟨.recvUdp n params.payloadSize.toNat, .ok o⟩ : Event) ∈ t ∧ o.1 = m.octets
  only : datagrams t = [m.octets]
  whole : m.isTruncated = false
  unconnected : tcpTargets t = []

/-- The message is what follows its length in the octets that a run read, all from one stream to
the server. -/
structure FromStream (params : QueryParams) (t : List Event) (m : Message) : Prop where
  stream : ∃ n, (⟨.connectTcp params.server, .ok n⟩ : Event) ∈ t ∧ ∀ k ∈ reads t, k = n
  framed : Framed (streamed t) m.octets

namespace Query

/-- What the events of a run have brought so far, for a query in some phase. -/
def Brought (params : QueryParams) (t : List Event) : Phase → Prop
  | .idle => t = []
  | .udpWrite n | .udpRead n =>
    params.mode = .preferUdp ∧ (∃ f, (⟨.bindUdp f, .ok n⟩ : Event) ∈ t) ∧ datagrams t = [] ∧
      ∀ w ∈ t, w.1.purpose = .upkeep ∨ w.1.purpose = .datagram
  | .tcpConnect n | .tcpWrite n _ => (⟨.connectTcp params.server, .ok n⟩ : Event) ∈ t ∧ reads t = []
  | .tcpRead n reader =>
    (⟨.connectTcp params.server, .ok n⟩ : Event) ∈ t ∧ (∀ k ∈ reads t, k = n) ∧
      reader.Holds (streamed t)
  | .closed => True

/-- The message answers the request, and it comes from where a response may come from. -/
structure Sourced (request : Message) (params : QueryParams) (t : List Event) (m : Message) :
    Prop where
  id : m.id = request.id
  source : FromDatagram params t m ∨ FromStream params t m

/-- After these events the query has brought what its phase says, and a response comes from them. -/
structure Brings (q : Query) (t : List Event) (r : Step × Query) : Prop where
  brought : Brought q.params t r.2.phase
  sourced : ∀ m, r.1 = .done (.ok m) → Sourced q.request q.params t m

variable {t u : List Event} {q q' : Query} {r : Step × Query} {a : Action} {vs : List Visit}
  {n : Nat}

lemma brings_failed (e : QueryError) : Brings q t (q'.failed e) where
  brought := trivial
  sourced m hm := by cases hm

lemma brings_pending (h : Brought q.params t q'.phase) : Brings q t (.pending, q') where
  brought := h
  sourced m hm := by cases hm

lemma Armed.brings (h : q'.Armed r) (hb : Brought q.params t q'.phase) : Brings q t r := by
  obtain rfl | ⟨e, rfl⟩ := h
  · exact brings_pending hb
  · exact brings_failed _

/-! ### Calls -/

lemma brings_tcpConnect (h : Yields q.tcpConnect u r) (ht : reads t = []) :
    Brings q (t ++ u) r := by
  obtain ⟨u, x, v, rfl, hu, hv, hx⟩ := yields_tcpConnect h
  cases x with
  | error e => exact hx ▸ brings_failed _
  | ok s =>
    refine hx.brings ⟨by simp, ?_⟩
    have hc : reads (⟨.connectTcp q.params.server, .ok s⟩ :: v) = [] := hv.reads_eq
    rw [reads_append, reads_append, ht, hu.reads_eq, hc]
    rfl

lemma brings_tcpWrite {w : Nat} (hp : q.phase = .tcpWrite n w) (h : Yields (q.tcpWrite n w) u r)
    (hb : Brought q.params t q.phase) : Brings q (t ++ u) r := by
  rw [hp] at hb
  obtain ⟨hc, ht⟩ := hb
  obtain ⟨-, -, rfl⟩ | ⟨-, x, v, rfl, hv, hx⟩ := yields_tcpWrite (by rw [hp]; rfl) h
  · exact brings_failed _
  · have hc' (u : List Event) : (⟨.connectTcp q.params.server, .ok n⟩ : Event) ∈ t ++ u :=
      List.mem_append_left u hc
    have ht' : reads (t ++ (⟨.writeTcp n (q.lengthOctets.drop w)
        (q.request.octets.drop (w - 2)), x⟩ : Event) :: v) = [] := by
      rw [reads_append, ht]
      exact hv.reads_eq
    cases x with
    | ok k =>
      simp only at hx
      split_ifs at hx
      · exact hx ▸ brings_failed _
      · exact hx.brings ⟨hc' _, ht'⟩
      · have hr : ∀ i ∈ reads (t ++ (⟨.writeTcp n (q.lengthOctets.drop w)
            (q.request.octets.drop (w - 2)), .ok k⟩ : Event) :: v), i = n := by
          rw [ht']
          exact fun i hi => by cases hi
        refine hx.brings ⟨hc' _, hr, ?_⟩
        rw [streamed_eq_nil ht']
        exact StreamReader.holds_start
    | error e =>
      simp only at hx
      split_ifs at hx
      · exact hx.brings (by rw [hp]; exact ⟨hc' _, ht'⟩)
      · exact hx ▸ brings_failed _

lemma brings_tcpConnected (hp : q.phase = .tcpConnect n) (h : Yields (q.tcpConnected n) u r)
    (hb : Brought q.params t q.phase) : Brings q (t ++ u) r := by
  have hb' := hb
  rw [hp] at hb'
  obtain ⟨hc, ht⟩ := hb'
  obtain ⟨x, u, rfl, hx⟩ := yields_tcpConnected (by rw [hp]; rfl) h
  match x with
  | .error e | .ok (some e) => exact hx.2 ▸ brings_failed _
  | .ok none =>
    obtain ⟨y, v, rfl, hy⟩ := hx
    cases y with
    | ok y =>
      have hu : reads (t ++ [⟨.takeError n, .ok none⟩, ⟨.peerAddress n, .ok y⟩]) = [] := by
        rw [reads_append, ht]
        rfl
      have hw := brings_tcpWrite (q := { q with phase := .tcpWrite n 0 }) rfl hy
        ⟨List.mem_append_left _ hc, hu⟩
      rw [List.append_assoc] at hw
      exact ⟨hw.brought, hw.sourced⟩
    | error e =>
      obtain ⟨hv, hy⟩ := hy
      split_ifs at hy
      · refine hy.brings ?_
        rw [hp]
        refine ⟨List.mem_append_left _ hc, ?_⟩
        rw [reads_append, ht]
        exact hv.reads_eq
      · exact hy ▸ brings_failed _

lemma brings_tcpRead {reader : StreamReader} (hp : q.phase = .tcpRead n reader)
    (h : Yields (q.tcpRead n reader) u r) (hb : Brought q.params t q.phase) :
    Brings q (t ++ u) r := by
  rw [hp] at hb
  obtain ⟨hc, ht, hr⟩ := hb
  obtain ⟨x, v, rfl, hv, hx⟩ := yields_tcpRead (by rw [hp]; rfl) h
  have hc' (u : List Event) : (⟨.connectTcp q.params.server, .ok n⟩ : Event) ∈ t ++ u :=
    List.mem_append_left u hc
  have ht' : ∀ k ∈ reads (t ++ ⟨.readTcp n reader.room, x⟩ :: v), k = n := by
    have hv' : reads (⟨.readTcp n reader.room, x⟩ :: v) = [n] := by
      simpa [reads] using hv.reads_eq
    rw [reads_append, hv']
    intro k hk
    rcases List.mem_append.1 hk with hk | hk
    · exact ht k hk
    · exact List.mem_singleton.1 hk
  cases x with
  | ok o =>
    have hs : streamed (t ++ ⟨.readTcp n reader.room, .ok o⟩ :: v) = streamed t ++ o.1 := by
      have hv' : streamed (⟨.readTcp n reader.room, .ok o⟩ :: v) = o.1 ++ streamed v := rfl
      rw [streamed_append, hv', streamed_eq_nil hv.reads_eq, List.append_nil]
    have ha := hr.advance o.2
    simp only at hx
    split_ifs at hx
    · exact hx ▸ brings_failed _
    · split at hx
      · next body hb =>
        rw [hb] at ha
        split at hx
        · exact hx ▸ brings_failed _
        · next m hm =>
          split_ifs at hx with hi
          · refine hx ▸ ⟨trivial, fun m' hm' => ?_⟩
            cases hm'
            refine ⟨hi, .inr ⟨⟨n, hc' _, ht'⟩, ?_⟩⟩
            rw [hs, Message.ofOctets?_eq_some.1 hm]
            exact ha
          · exact hx ▸ brings_failed _
      · next reader' hr' =>
        rw [hr', ← hs] at ha
        exact hx.brings ⟨hc' _, ht', ha⟩
  | error e =>
    have hs : streamed (t ++ ⟨.readTcp n reader.room, .error e⟩ :: v) = streamed t := by
      have hv' : streamed (⟨.readTcp n reader.room, .error e⟩ :: v) = streamed v := rfl
      rw [streamed_append, hv', streamed_eq_nil hv.reads_eq, List.append_nil]
    simp only at hx
    split_ifs at hx
    · refine hx.brings ?_
      rw [hp]
      exact ⟨hc' _, ht', by rw [hs]; exact hr⟩
    · exact hx ▸ brings_failed _

lemma Brings.of_same (h : Brings q' t r) (hs : q.Same q') : Brings q t r where
  brought := by
    rw [← hs.params]
    exact h.brought
  sourced := by
    rw [← hs.params, ← hs.request]
    exact h.sourced

/-- Up to the end of the UDP attempt, a run is nothing but work on UDP, without a datagram. -/
lemma Brought.onUdp (h : Brought q.params t q.phase) (hr : q.phase.rank ≤ 2)
    (hm : q.phase = .idle → q.params.mode = .preferUdp) :
    q.params.mode = .preferUdp ∧ datagrams t = [] ∧
      ∀ w ∈ t, w.1.purpose = .upkeep ∨ w.1.purpose = .datagram := by
  rcases hp : q.phase with _ | n | n | _ | _ | _ | _
  case idle =>
    rw [hp] at h
    obtain rfl : t = [] := h
    exact ⟨hm hp, rfl, fun w hw => by cases hw⟩
  case udpWrite | udpRead =>
    rw [hp] at h
    exact ⟨h.1, h.2.2⟩
  all_goals simp [hp, Phase.rank] at hr

lemma Brought.bound (h : Brought q.params t q.phase) (hs : q.phase.socket? = some ⟨.udp, n⟩) :
    ∃ f, (⟨.bindUdp f, .ok n⟩ : Event) ∈ t := by
  rcases hp : q.phase with _ | k | k | _ | _ | _ | _
  all_goals simp [hp, Phase.socket?] at hs
  all_goals
    subst hs
    rw [hp] at h
    exact h.2.1

lemma Attempt.brings (h : Attempt q u r) (hr : q.phase.rank ≤ 2)
    (hm : q.phase = .idle → q.params.mode = .preferUdp) (hb : Brought q.params t q.phase) :
    Brings q (t ++ u) r := by
  obtain ⟨hmode, hd, ht⟩ := hb.onUdp hr hm
  cases h with
  | @goesOn u q' n hu hd' _ hs _ hp hn =>
    have hbound : ∃ f, (⟨.bindUdp f, .ok n⟩ : Event) ∈ t ++ u := by
      rcases hn with hn | ⟨f, hf⟩
      · obtain ⟨f, hf⟩ := hb.bound hn
        exact ⟨f, List.mem_append_left _ hf⟩
      · exact ⟨f, List.mem_append_right _ hf⟩
    have hdatagrams : datagrams (t ++ u) = [] := by rw [datagrams_append, hd, hd', List.append_nil]
    have hpurpose := List.forall_mem_append.2 ⟨ht, hu.purpose⟩
    refine brings_pending ?_
    rcases hp' : q'.phase with _ | k | k | _ | _ | _ | _
    all_goals simp [hp', Phase.socket?] at hp
    all_goals
      subst hp
      exact ⟨hmode, hbound, hdatagrams, hpurpose⟩
  | @succeeds v n m hp o ho hi ht' hv =>
    have hmem : (⟨.recvUdp n q.params.payloadSize.toNat, .ok o⟩ : Event) ∈
        t ++ ⟨.recvUdp n q.params.payloadSize.toNat, .ok o⟩ :: v := by simp
    have ho' := Message.ofOctets?_eq_some.1 ho
    obtain ⟨f, hf⟩ := hb.bound (by rw [hp]; rfl)
    refine ⟨trivial, fun m' hm' => ?_⟩
    cases hm'
    refine ⟨hi, .inl ⟨hmode, ⟨n, f, o, List.mem_append_left _ hf, hmem, ho'.symm⟩, ?_, ht', ?_⟩⟩
    · have hv' : datagrams (⟨.recvUdp n q.params.payloadSize.toNat, .ok o⟩ :: v) =
          o.1 :: datagrams v := rfl
      rw [datagrams_append, hd, hv', hv.late.offUdp.datagrams_eq, ho']
      rfl
    · have hv' : tcpTargets (⟨.recvUdp n q.params.payloadSize.toNat, .ok o⟩ :: v) = [] :=
        hv.late.tcpTargets_eq
      rw [tcpTargets_append, tcpTargets_eq_nil ht, hv']
      rfl
  | @ends u v q' r hu _ _ h hs =>
    have hreads : reads (t ++ u) = [] := reads_eq_nil (List.forall_mem_append.2 ⟨ht, hu.purpose⟩)
    rw [← List.append_assoc]
    exact (brings_tcpConnect h hreads).of_same hs

lemma Move.brings (h : Move q a u r) (hb : Brought q.params t q.phase) : Brings q (t ++ u) r := by
  cases h with
  | rests _ =>
    rw [List.append_nil]
    exact brings_pending hb
  | givesUp _ _ => exact brings_pending trivial
  | attempts hr hm h => exact h.brings hr hm hb
  | starts hp _ h =>
    rw [hp] at hb
    obtain rfl : t = [] := hb
    exact brings_tcpConnect h rfl
  | streams hs h =>
    unfold ready at h
    split at h
    case h_5 hp => exact brings_tcpConnected hp h hb
    case h_6 hp => exact brings_tcpWrite hp h hb
    case h_7 hp => exact brings_tcpRead hp h hb
    all_goals next hp => simp [hp, Phase.socket?] at hs

/-! ### Runs -/

/-- A run keeps what the phase says of the events, and a response has a source in all of them. -/
lemma Visits.brings (h : Visits q vs q') (hb : Brought q.params t q.phase) :
    Brought q.params (t ++ eventsOf vs) q'.phase ∧
      ∀ v ∈ vs, ∀ m, v.step = .done (.ok m) →
        Sourced q.request q.params (t ++ eventsOf vs) m := by
  induction h generalizing t with
  | nil q => exact ⟨by simpa using hb, fun v hv => by cases hv⟩
  | @cons q q₁ q₂ a u s vs h hs ih =>
    have hm := move_of_act h
    obtain ⟨hb', hd⟩ := hm.brings hb
    have hsame := hm.leads.same
    rw [← hsame.params] at hb'
    have ih' := ih hb'
    rw [hsame.params, hsame.request, List.append_assoc] at ih'
    refine ⟨ih'.1, List.forall_mem_cons.2 ⟨fun m hm' => ?_, ih'.2⟩⟩
    -- nothing comes after the query is done
    have hc := (hm.leads.closed _ hm').1
    have he : eventsOf vs = [] := List.flatMap_eq_nil_iff.2 fun w hw => (hs.closed hc w hw).2
    rw [eventsOf_cons, he, List.append_nil]
    exact hd m hm'

end Query

end DnsClient
