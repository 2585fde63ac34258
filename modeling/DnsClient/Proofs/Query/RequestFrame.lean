import DnsClient.Proofs.Query.Order
import DnsClient.Proofs.Query.Response

/-!
How the request gets onto a stream.

What streams accept is always a first part of the frame of the request, and the phase tells how
much of it (`Phase.written?`). A write that is resumed works that cursor into two slices again; as
it is within the frame, they are in range and make up just the rest. `Writing` lists what one call
on a query can come to for the frame, and `Sent` is what a run keeps.
-/

namespace DnsClient

open Program

/-! ### The frame -/

/-- The request on a stream: its length in two octets, and then the request. -/
def Message.frame (request : Message) : Octets :=
  Octets.ofNat 2 request.octets.length ++ request.octets

/-- The slices of the length and of the request behind the first `w` octets of the frame. -/
inductive Slices (request : Message) (w : Nat) : Octets → Octets → Prop where
  | length (hw : w < 2) :
      Slices request w ((Octets.ofNat 2 request.octets.length).drop w) request.octets
  | body (hw : 2 ≤ w) (hr : w - 2 < request.octets.length) :
      Slices request w [] (request.octets.drop (w - 2))

/-- How much of the frame has been written in a phase, unless the query is over. -/
def Phase.written? (request : Message) : Phase → Option Nat
  | .idle | .udpWrite _ | .udpRead _ | .tcpConnect _ => some 0
  | .tcpWrite _ w => some w
  | .tcpRead .. => some request.frame.length
  | .closed => none

/-- What streams have accepted is as much of the frame as the phase says. -/
structure Sent (request : Message) (t : List Event) (p : Phase) : Prop where
  begins : accepted t <+: request.frame
  exact : ∀ w, p.written? request = some w → accepted t = request.frame.take w
  writing : ∀ n w, p = .tcpWrite n w →
    w < request.frame.length ∧ request.octets.length ≤ maxMessageLength

section
variable {request : Message} {head tail : Octets} {t : List Event} {w : Nat}

lemma writeTcp_notMem (h : writes t = []) (n : Nat) (x) :
    (⟨.writeTcp n head tail, x⟩ : Event) ∉ t := by
  intro hm
  have hn : n ∈ writes t := List.mem_filterMap.2 ⟨_, hm, rfl⟩
  rw [h] at hn
  cases hn

lemma writes_cons_write {n : Nat} (x : (Call.writeTcp n head tail).Answer) :
    writes (⟨.writeTcp n head tail, x⟩ :: t) = n :: writes t := rfl

lemma accepted_cons_write {n : Nat} (x : (Call.writeTcp n head tail).Answer) :
    accepted (⟨.writeTcp n head tail, x⟩ :: t) =
      (head ++ tail).take ((x.map (·.1)).toOption.getD 0) ++ accepted t := by
  cases x <;> rfl

lemma Quiet.peerAddress_notMem (h : Quiet t) (n : Nat) (x) :
    (⟨.peerAddress n, .ok x⟩ : Event) ∉ t :=
  fun hm => by simpa [Call.purpose] using h _ hm

lemma Phase.written?_of_rank {p : Phase} (h : p.rank ≤ 3) : p.written? request = some 0 := by
  cases p <;> simp [Phase.rank] at h <;> rfl

@[simp] lemma Message.length_frame : request.frame.length = 2 + request.octets.length := by
  rw [frame, List.length_append, Octets.length_ofNat]

lemma slices_of_lt (hw : w < request.frame.length) :
    Slices request w ((Octets.ofNat 2 request.octets.length).drop w)
      (request.octets.drop (w - 2)) := by
  rw [Message.length_frame] at hw
  rcases Nat.lt_or_ge w 2 with h | h
  · have h0 : w - 2 = 0 := by omega
    rw [h0, List.drop_zero]
    exact .length h
  · have hn : (Octets.ofNat 2 request.octets.length).drop w = [] :=
      List.drop_eq_nil_of_le (by rwa [Octets.length_ofNat])
    rw [hn]
    exact .body h (by omega)

/-- Together the slices are all that is left. -/
lemma Slices.append_eq (h : Slices request w head tail) :
    head ++ tail = request.frame.drop w := by
  cases h with
  | length hw =>
    have hl : w ≤ (Octets.ofNat 2 request.octets.length).length := by
      rw [Octets.length_ofNat]
      omega
    exact (List.drop_append_of_le_length hl).symm
  | body hw _ =>
    have hl : (Octets.ofNat 2 request.octets.length).length ≤ w := by
      rwa [Octets.length_ofNat]
    rw [Message.frame, List.drop_append, List.drop_eq_nil_of_le hl, Octets.length_ofNat]

lemma Slices.lt (h : Slices request w head tail) : w < request.frame.length := by
  rw [Message.length_frame]
  cases h with
  | length hw => omega
  | body hw hr => omega

lemma Slices.ne_nil (h : Slices request w head tail) : head ++ tail ≠ [] := by
  rw [h.append_eq]
  exact fun hn => absurd (List.drop_eq_nil_iff.1 hn) (Nat.not_le.2 h.lt)

end

namespace Query

/-- What the query does when a stream has answered to the frame from octet `w` on. -/
def Offered (q : Query) (n w : Nat) (x : Except IoError Nat) (r : Step × Query) : Prop :=
  match x with
  | .ok k =>
    if k = 0 then q.FailsWith (.streamWrite .writeZero) r
    else if w + k < q.request.frame.length then Armed { q with phase := .tcpWrite n (w + k) } r
    else Armed { q with phase := .tcpRead n .start } r
  | .error e =>
    if e.isRetry then Armed { q with phase := .tcpWrite n w } r
    else q.FailsWith (.streamWrite e) r

/-- What a call on a query can come to for the frame of its request. -/
inductive Writing (q : Query) : List Event → Step × Query → Prop where
  /-- Nothing is written, and no more is known to be written. -/
  | keeps {u : List Event} {r : Step × Query} (hw : writes u = [])
      (hc : ∀ n x, (⟨.peerAddress n, .ok x⟩ : Event) ∉ u)
      (hp : r.2.phase = .closed ∨ r.2.phase = q.phase ∨
        r.2.phase.rank ≠ 4 ∧ r.2.phase.written? q.request = q.phase.written? q.request) :
      Writing q u r
  | refuses {u : List Event} {r : Step × Query} (hw : writes u = [])
      (hl : maxMessageLength < q.request.octets.length)
      (hr : q.FailsWith (.streamWrite .requestTooLong) r) : Writing q u r
  | offers {u v : List Event} {r : Step × Query} {n w : Nat} (x)
      (hp : q.phase = .tcpConnect n ∧ w = 0 ∨ q.phase = .tcpWrite n w)
      (hl : q.request.octets.length ≤ maxMessageLength) (hu : writes u = []) (hv : writes v = [])
      (hr : q.Offered n w (x.map (·.1)) r) :
      Writing q (u ++ ⟨.writeTcp n (q.lengthOctets.drop w) (q.request.octets.drop (w - 2)), x⟩ :: v)
        r

/-- A write, behind events in which streams accepted a first part of the frame, offers all that is
left of it, on the stream that was connected; and the query goes on by what is accepted. -/
structure Offers (request : Message) (params : QueryParams) (t : List Event) (v : Visit) (n : Nat)
    (head tail : Octets) (x : Except IoError Nat) : Prop where
  stream : (⟨.connectTcp params.server, .ok n⟩ : Event) ∈ t
  slices : Slices request (accepted t).length head tail
  rest : head ++ tail = request.frame.drop (accepted t).length
  nonempty : head ++ tail ≠ []
  result : v.before.Offered n (accepted t).length x (v.step, v.after)

variable {t u : List Event} {q q' : Query} {r : Step × Query} {a : Action} {vs : List Visit}
  {n w : Nat}

/-! ### Calls -/

lemma Armed.phase (h : q.Armed r) : r.2.phase = .closed ∨ r.2.phase = q.phase := by
  obtain rfl | ⟨e, rfl⟩ := h
  · exact .inr rfl
  · exact .inl rfl

/-- Without work on a stream nothing is written. -/
lemma writing_of_purpose (h : ∀ v ∈ u, v.1.purpose ≠ .stream)
    (hp : r.2.phase = .closed ∨ r.2.phase = q.phase ∨
      r.2.phase.rank ≠ 4 ∧ r.2.phase.written? q.request = q.phase.written? q.request) :
    Writing q u r :=
  .keeps (writes_eq_nil h) (fun _ _ hm => h _ hm rfl) hp

lemma writing_tcpConnect (h : Yields q'.tcpConnect t r) (hu : ∀ v ∈ u, v.1.purpose ≠ .stream)
    (hq : q.phase.rank ≤ 2) : Writing q (u ++ t) r := by
  obtain ⟨t₁, x, t₂, rfl, h₁, h₂, hx⟩ := yields_tcpConnect h
  refine writing_of_purpose ?_ ?_
  · refine List.forall_mem_append.2 ⟨hu, List.forall_mem_append.2 ⟨?_, ?_⟩⟩
    · exact fun v hv => by simp [h₁ v hv]
    · exact List.forall_mem_cons.2 ⟨by simp [Call.purpose], fun v hv => by simp [h₂ v hv]⟩
  · cases x with
    | error e => exact .inl (hx ▸ rfl)
    | ok s =>
      rcases hx.phase with hp | hp
      · exact .inl hp
      · refine .inr (.inr ?_)
        rw [hp, Phase.written?_of_rank (Nat.le_trans hq (by decide))]
        exact ⟨by simp [Phase.rank], rfl⟩

lemma writing_tcpWrite (hp : q.phase = .tcpConnect n ∧ w = 0 ∨ q.phase = .tcpWrite n w)
    (hu : writes u = []) (h : Yields (tcpWrite { q with phase := .tcpWrite n w } n w) t r) :
    Writing q (u ++ t) r := by
  obtain ⟨hl, ht, rfl⟩ | ⟨hl, x, v, rfl, hv, hx⟩ := yields_tcpWrite rfl h
  · refine .refuses ?_ hl (failsWith_failed rfl)
    rw [writes_append, hu, ht.writes_eq]
    rfl
  · refine Writing.offers (q := q) x hp hl hu hv.writes_eq ?_
    cases x with
    | ok k =>
      simp only [Offered, Except.map, Message.length_frame] at hx ⊢
      split_ifs at hx ⊢
      · exact hx ▸ failsWith_failed rfl
      · exact hx
      · exact hx
    | error e =>
      simp only [Offered, Except.map] at hx ⊢
      split_ifs at hx ⊢
      · exact hx
      · exact hx ▸ failsWith_failed rfl

lemma writing_tcpConnected (hp : q.phase = .tcpConnect n) (h : Yields (q.tcpConnected n) u r) :
    Writing q u r := by
  obtain ⟨x, u, rfl, hx⟩ := yields_tcpConnected (by rw [hp]; rfl) h
  match x with
  | .error e | .ok (some e) =>
    obtain ⟨hu, rfl⟩ := hx
    exact .keeps hu.writes_eq (by simpa using hu.peerAddress_notMem) (.inl rfl)
  | .ok none =>
    obtain ⟨y, v, rfl, hy⟩ := hx
    cases y with
    | ok y =>
      exact writing_tcpWrite (u := [⟨.takeError n, .ok none⟩, ⟨.peerAddress n, .ok y⟩])
        (.inl ⟨hp, rfl⟩) rfl hy
    | error e =>
      obtain ⟨hv, hy⟩ := hy
      refine .keeps hv.writes_eq (by simpa using hv.peerAddress_notMem) ?_
      split_ifs at hy
      · exact hy.phase.imp_right .inl
      · exact .inl (hy ▸ rfl)

lemma writing_tcpRead {reader : StreamReader} (hp : q.phase = .tcpRead n reader)
    (h : Yields (q.tcpRead n reader) u r) : Writing q u r := by
  have hr := (leads_tcpRead hp h).2.rank
  obtain ⟨x, v, rfl, hv, -⟩ := yields_tcpRead (by rw [hp]; rfl) h
  refine .keeps hv.writes_eq (by simpa using hv.peerAddress_notMem) ?_
  rcases hq : r.2.phase with _ | _ | _ | _ | _ | _ | _
  case tcpRead =>
    rw [hp]
    exact .inr (.inr ⟨by simp [Phase.rank], rfl⟩)
  case closed => exact .inl rfl
  all_goals simp [hp, hq, Phase.rank] at hr

lemma Attempt.writing (h : Attempt q u r) (hr : q.phase.rank ≤ 2) : Writing q u r := by
  have notStream {p : Phase} {u : List Event} (hu : UdpPart q p u) :
      ∀ v ∈ u, v.1.purpose ≠ .stream := fun v hv hs => by simpa [hs] using hu.purpose v hv
  cases h with
  | @goesOn u q' n hu _ _ _ _ hp _ =>
    refine writing_of_purpose (notStream hu) (.inr (.inr ?_))
    have hr' := Phase.rank_le_of_udp hp
    rw [Phase.written?_of_rank (Nat.le_trans hr (by decide)),
      Phase.written?_of_rank (Nat.le_trans hr' (by decide))]
    exact ⟨Nat.ne_of_lt (Nat.lt_of_le_of_lt hr' (by decide)), rfl⟩
  | succeeds _ _ _ _ _ hv =>
    refine .keeps hv.writes_eq (by simpa using hv.peerAddress_notMem) (.inl rfl)
  | ends hu _ _ h _ => exact writing_tcpConnect h (notStream hu) hr

theorem Move.writing (h : Move q a u r) : Writing q u r := by
  cases h with
  | rests _ => exact .keeps rfl (fun _ _ hm => by cases hm) (.inr (.inl rfl))
  | givesUp ht _ => exact .keeps ht.writes_eq ht.peerAddress_notMem (.inl rfl)
  | attempts hr _ h => exact h.writing hr
  | starts hp _ h =>
    exact writing_tcpConnect (u := []) h (fun _ hm => by cases hm) (by simp [hp, Phase.rank])
  | streams hs h =>
    unfold ready at h
    split at h
    case h_5 hp => exact writing_tcpConnected hp h
    case h_6 n w hp =>
      have hq : { q with phase := .tcpWrite n w } = q := by rw [← hp]
      exact writing_tcpWrite (u := []) (.inr hp) rfl (by rwa [hq])
    case h_7 hp => exact writing_tcpRead hp h
    all_goals next hp => simp [hp, Phase.socket?] at hs

/-! ### Runs -/

lemma sent_closed {request : Message} (h : accepted t <+: request.frame) :
    Sent request t .closed where
  begins := h
  exact _ hw := by cases hw
  writing _ _ hp := by cases hp

/-- An armed query has written what its phase says, or it is over. -/
lemma Armed.sent {request : Message} (h : q'.Armed r) (hs : Sent request t q'.phase) :
    Sent request t r.2.phase := by
  rcases h.phase with hp | hp
  · rw [hp]
    exact sent_closed hs.begins
  · rwa [hp]

/-- As many octets as the stream accepts of what is offered take the cursor on. -/
lemma Offered.sent {x : Except IoError Nat} (h : q.Offered n w x r)
    (hw : w < q.request.frame.length) (hl : q.request.octets.length ≤ maxMessageLength)
    (hk : ∀ k, x = .ok k → w + k ≤ q.request.frame.length)
    (ha : accepted t = q.request.frame.take (w + x.toOption.getD 0)) :
    Sent q.request t r.2.phase := by
  have hb : accepted t <+: q.request.frame := by
    rw [ha]
    exact List.take_prefix _ _
  cases x with
  | ok k =>
    have ha : accepted t = q.request.frame.take (w + k) := ha
    simp only [Offered] at h
    split_ifs at h with h0 hlt
    · rw [h.1]
      exact sent_closed hb
    · refine h.sent ⟨hb, fun w' hw' => ?_, fun n' w' hp => ?_⟩
      · cases hw'
        exact ha
      · cases hp
        exact ⟨hlt, hl⟩
    · have he : w + k = q.request.frame.length := Nat.le_antisymm (hk k rfl) (Nat.le_of_not_lt hlt)
      refine h.sent ⟨hb, fun w' hw' => ?_, fun n' w' hp => ?_⟩
      · cases hw'
        rw [ha, he]
      · cases hp
  | error e =>
    have ha : accepted t = q.request.frame.take w := ha
    simp only [Offered] at h
    split_ifs at h
    · refine h.sent ⟨hb, fun w' hw' => ?_, fun n' w' hp => ?_⟩
      · cases hw'
        exact ha
      · cases hp
        exact ⟨hw, hl⟩
    · rw [h.1]
      exact sent_closed hb

/-- The cursor of a query that is about to write. -/
lemma cursor_of_sent (h : Sent q.request t q.phase)
    (hp : q.phase = .tcpConnect n ∧ w = 0 ∨ q.phase = .tcpWrite n w) :
    w < q.request.frame.length ∧ accepted t = q.request.frame.take w := by
  obtain ⟨hp, rfl⟩ | hp := hp
  · refine ⟨?_, h.exact 0 (by rw [hp]; rfl)⟩
    rw [Message.length_frame]
    omega
  · exact ⟨(h.writing n w hp).1, h.exact w (by rw [hp]; rfl)⟩

theorem Writing.sent (h : Writing q u r) (hs : Sent q.request t q.phase) :
    Sent q.request (t ++ u) r.2.phase := by
  have same (hw : writes u = []) : accepted (t ++ u) = accepted t := by
    rw [accepted_append, accepted_eq_nil hw, List.append_nil]
  cases h with
  | keeps hw _ hp =>
    have hb : accepted (t ++ u) <+: q.request.frame := by
      rw [same hw]
      exact hs.begins
    obtain hp | hp | ⟨h4, hp⟩ := hp
    · rw [hp]
      exact sent_closed hb
    · rw [hp]
      exact ⟨hb, fun w h => (same hw).trans (hs.exact w h), hs.writing⟩
    · refine ⟨hb, fun w h => (same hw).trans (hs.exact w (hp ▸ h)), fun n w h => ?_⟩
      rw [h] at h4
      exact absurd rfl h4
  | refuses hw _ hr =>
    rw [hr.1]
    refine sent_closed ?_
    rw [same hw]
    exact hs.begins
  | @offers u v r n w x hp hl hu hv hr =>
    obtain ⟨hlt, ha⟩ := cursor_of_sent hs hp
    have hrest : q.lengthOctets.drop w ++ q.request.octets.drop (w - 2) =
        q.request.frame.drop w := (slices_of_lt hlt).append_eq
    refine hr.sent hlt hl (fun k hk => ?_) ?_
    · cases x with
      | ok k' =>
        cases hk
        have hle : k'.1 ≤ q.request.frame.length - w := by
          rw [← List.length_drop, ← hrest, List.length_append]
          exact k'.2
        exact Nat.add_le_of_le_sub' (Nat.le_of_lt hlt) hle
      | error e => cases hk
    · rw [accepted_append, accepted_append, accepted_eq_nil hu, accepted_cons_write,
        accepted_eq_nil hv, ha, List.take_add, hrest, List.nil_append, List.append_nil]

lemma Visits.sent (h : Visits q vs q') (hs : Sent q.request t q.phase) :
    Sent q.request (t ++ eventsOf vs) q'.phase := by
  induction h generalizing t with
  | nil q => rwa [eventsOf_nil, List.append_nil]
  | cons h _ ih =>
    have hm := move_of_act h
    have hs' := hm.writing.sent hs
    rw [← hm.leads.same.request] at hs' ⊢
    rw [eventsOf_cons, ← List.append_assoc]
    exact ih hs'

/-- A call writes once at most. -/
lemma Writing.single (h : Writing q u r) : (writes u).length ≤ 1 := by
  cases h with
  | keeps hw _ _ | refuses hw _ _ => simp [hw]
  | offers x hp hl hu hv hr =>
    rw [writes_append, hu, writes_cons_write, hv]
    exact Nat.le_refl _

/-- A write offers what is left behind the cursor of the query. -/
lemma Writing.offer (h : Writing q u r) {head tail : Octets} {x}
    (hm : (⟨.writeTcp n head tail, x⟩ : Event) ∈ u) :
    ∃ w, (q.phase = .tcpConnect n ∧ w = 0 ∨ q.phase = .tcpWrite n w) ∧
      head = q.lengthOctets.drop w ∧ tail = q.request.octets.drop (w - 2) ∧
      q.Offered n w (x.map (·.1)) r := by
  cases h with
  | keeps hw _ _ | refuses hw _ _ => exact absurd hm (writeTcp_notMem hw n x)
  | @offers u v r n w x' hp hl hu hv hr =>
    rcases List.mem_append.1 hm with hm | hm
    · exact absurd hm (writeTcp_notMem hu _ x)
    · rcases List.mem_cons.1 hm with hm | hm
      · cases hm
        exact ⟨w, hp, rfl, rfl, hr⟩
      · exact absurd hm (writeTcp_notMem hv _ x)

/-- A request that is too long is not written, and an established connection ends the query. -/
lemma Writing.tooLong (h : Writing q u r) (hl : maxMessageLength < q.request.octets.length) :
    writes u = [] ∧ ∀ n x, (⟨.peerAddress n, .ok x⟩ : Event) ∈ u →
      q.FailsWith (.streamWrite .requestTooLong) r := by
  cases h with
  | keeps hw hc _ => exact ⟨hw, fun n x hm => absurd hm (hc n x)⟩
  | refuses hw _ hr => exact ⟨hw, fun _ _ _ => hr⟩
  | offers x hp hl' => exact absurd hl (Nat.not_lt.2 hl')

/-- In the writing phase a query writes whenever its socket is ready. -/
lemma writes_ready (hs : Sent q.request t q.phase) (hp : q.phase = .tcpWrite n w)
    (h : Yields q.ready u r) : writes u = [n] := by
  simp only [ready, hp] at h
  obtain ⟨hl, -, -⟩ | ⟨-, x, v, rfl, hv, -⟩ := yields_tcpWrite (by rw [hp]; rfl) h
  · exact absurd hl (Nat.not_lt.2 (hs.writing n w hp).2)
  · rw [writes_cons_write, hv.writes_eq]

/-- The frame is out just when the query has come to read. -/
lemma accepted_eq_frame (h : Sent q.request t q.phase) (hp : q.phase ≠ .closed) :
    accepted t = q.request.frame ↔ ∃ n reader, q.phase = .tcpRead n reader := by
  constructor
  · intro ha
    have hle (w : Nat) (hw : q.phase.written? q.request = some w) :
        q.request.frame.length ≤ w := by
      have hl := congrArg List.length (h.exact w hw)
      rw [ha, List.length_take] at hl
      omega
    have h0 : q.phase.rank ≤ 3 → False := fun hr => by
      have := hle 0 (Phase.written?_of_rank hr)
      rw [Message.length_frame] at this
      omega
    rcases hq : q.phase with _ | n | n | n | ⟨n, w⟩ | ⟨n, reader⟩ | _
    case tcpWrite =>
      exact absurd (h.writing n w hq).1 (Nat.not_lt.2 (hle w (by rw [hq]; rfl)))
    case tcpRead => exact ⟨n, reader, rfl⟩
    case closed => exact absurd hq hp
    all_goals exact (h0 (by simp [hq, Phase.rank])).elim
  · rintro ⟨n, reader, hr⟩
    rw [h.exact _ (by rw [hr]; rfl), List.take_length]

lemma Visits.offers {ws ws' : List Visit} {v : Visit} {head tail : Octets} {x}
    (h : Visits q (ws ++ v :: ws') q') (hb : Brought q.params t q.phase)
    (hs : Sent q.request t q.phase)
    (hm : (⟨.writeTcp n head tail, x⟩ : Event) ∈ v.calls) :
    Offers q.request q.params (t ++ eventsOf ws) v n head tail (x.map (·.1)) := by
  obtain ⟨hws, hv, -⟩ := h.split
  have hsame := hws.same.1
  have hb' := (hws.brings hb).1
  have hs' := hws.sent hs
  obtain ⟨w, hp, rfl, rfl, hr⟩ := (move_of_act hv).writing.offer hm
  rw [← hsame.request] at hs' ⊢
  obtain ⟨hlt, ha⟩ := cursor_of_sent hs' hp
  have hl : (accepted (t ++ eventsOf ws)).length = w := by
    rw [ha, List.length_take]
    exact Nat.min_eq_left (Nat.le_of_lt hlt)
  have hsl := slices_of_lt hlt
  refine ⟨?_, ?_, ?_, hsl.ne_nil, ?_⟩
  · rcases hp with ⟨hp, -⟩ | hp
    · rw [hp] at hb'
      exact hb'.1
    · rw [hp] at hb'
      exact hb'.1
  · rw [hl]
    exact hsl
  · rw [hl]
    exact hsl.append_eq
  · rw [hl]
    exact hr

end Query

/-- What a run does for the frame of its request. -/
structure RequestFraming (request : Message) (params : QueryParams) (vs : List Query.Visit)
    (q : Query) : Prop where
  /-- What streams have accepted is as much of the frame as the phase says. -/
  sent : Sent request (Query.eventsOf vs) q.phase
  /-- A query comes to read when the frame is out, and not before. -/
  complete : q.phase ≠ .closed →
    (accepted (Query.eventsOf vs) = request.frame ↔ ∃ n reader, q.phase = .tcpRead n reader)
  /-- A call makes one write at most. -/
  single : ∀ v ∈ vs, (writes v.calls).length ≤ 1
  /-- In the writing phase it makes one, when the socket is ready. -/
  resumed : ∀ v ∈ vs, ∀ n w, v.before.phase = .tcpWrite n w → v.action = .ready →
    writes v.calls = [n]
  offered : ∀ ws v ws' n head tail x, vs = ws ++ v :: ws' →
    (⟨.writeTcp n head tail, x⟩ : Event) ∈ v.calls →
      Query.Offers request params (Query.eventsOf ws) v n head tail (x.map (·.1))
  /-- A request that is too long is not written at all, and fails once the connection stands. -/
  tooLong : maxMessageLength < request.octets.length →
    writes (Query.eventsOf vs) = [] ∧ ∀ v ∈ vs, ∀ n x, (⟨.peerAddress n, .ok x⟩ : Event) ∈ v.calls →
      v.before.FailsWith (.streamWrite .requestTooLong) (v.step, v.after)

/-- **The request on the stream**: whatever streams accept of each write, and whatever goes wrong in
between, they get the frame of the request octet by octet. -/
theorem request_framing {id : QueryId} {request : Message} {params : QueryParams}
    {vs : List Query.Visit} {q : Query} (h : Query.Visits { id, request, params } vs q) :
    RequestFraming request params vs q := by
  have h₀ : Sent request [] .idle :=
    ⟨List.nil_prefix, fun w hw => by cases hw; rfl, fun _ _ hp => by cases hp⟩
  have hs : Sent request (Query.eventsOf vs) q.phase := h.sent (t := []) h₀
  have hr : q.request = request := h.same.1.request
  refine ⟨hs, ?_, fun v hv => (h.move v hv).writing.single, ?_, ?_, fun hl => ⟨?_, ?_⟩⟩
  · rw [← hr] at hs ⊢
    exact Query.accepted_eq_frame hs
  · intro v hv n w hp ha
    obtain ⟨ws, ws', rfl⟩ := List.append_of_mem hv
    obtain ⟨hws, hy, -⟩ := h.split
    have hs' := hws.sent (t := []) h₀
    rw [ha] at hy
    rw [← hws.same.1.request] at hs'
    exact Query.writes_ready hs' hp hy
  · rintro ws v ws' n head tail x rfl hm
    exact h.offers (t := []) rfl h₀ hm
  · have hw (v) (hv : v ∈ vs) : writes v.calls = [] :=
      ((h.move v hv).writing.tooLong (by rwa [(h.same.2 v hv).request])).1
    rw [writes, Query.eventsOf, List.filterMap_flatMap]
    exact List.flatMap_eq_nil_iff.2 hw
  · intro v hv
    exact ((h.move v hv).writing.tooLong (by rwa [(h.same.2 v hv).request])).2

/-- The frame of a request that a stream takes in four pieces: each octet of the length alone, a
failure for the moment, a part of the request, and the rest. -/
theorem request_framing_pieces : ∃ (request : Message) (params : QueryParams)
    (vs : List Query.Visit) (q : Query), Query.Visits { id := 7, request, params } vs q ∧
      vs.map (fun v => (accepted v.calls).length) = [0, 1, 1, 0, 5, 7] ∧
      accepted (Query.eventsOf vs) = 0 :: 12 :: request.octets ∧
      RequestFraming request params vs q := by
  let params : QueryParams := { server := ⟨.localhost, 53⟩, mode := .tcpOnly }
  let q (phase : Phase) : Query := { id := 7, request := .blank, params, phase, registered := true }
  let body := Message.blank.octets
  let wait (i : Interest) : List Event := [⟨.wake, ()⟩, ⟨.reregister ⟨.tcp, 2⟩ 7 i, .ok ()⟩]
  have h₀ : Yields (Query.act { id := 7, request := .blank, params } .start)
      [⟨.connectTcp params.server, .ok 2⟩, ⟨.wake, ()⟩, ⟨.register ⟨.tcp, 2⟩ 7 .writable, .ok ()⟩]
      (.pending, q (.tcpConnect 2)) := .call _ (.call _ (.call _ (.pure _)))
  have hw : Yields ((q (.tcpWrite 2 0)).tcpWrite 2 0)
      (⟨.writeTcp 2 (Octets.ofNat 2 12) body, .ok ⟨1, by decide⟩⟩ :: wait .writable)
      (.pending, q (.tcpWrite 2 1)) := .call _ (.call _ (.call _ (.pure _)))
  have h₁ : Yields ((q (.tcpConnect 2)).act .ready)
      (⟨.takeError 2, .ok none⟩ :: ⟨.peerAddress 2, .ok ()⟩ ::
        ⟨.writeTcp 2 (Octets.ofNat 2 12) body, .ok ⟨1, by decide⟩⟩ :: wait .writable)
      (.pending, q (.tcpWrite 2 1)) := .call _ (.call _ hw)
  have h₂ : Yields ((q (.tcpWrite 2 1)).act .ready)
      (⟨.writeTcp 2 [12] body, .ok ⟨1, by decide⟩⟩ :: wait .writable)
      (.pending, q (.tcpWrite 2 2)) := .call _ (.call _ (.call _ (.pure _)))
  have h₃ : Yields ((q (.tcpWrite 2 2)).act .ready)
      (⟨.writeTcp 2 [] body, .error ⟨.wouldBlock, "later"⟩⟩ :: wait .writable)
      (.pending, q (.tcpWrite 2 2)) := .call _ (.call _ (.call _ (.pure _)))
  have h₄ : Yields ((q (.tcpWrite 2 2)).act .ready)
      (⟨.writeTcp 2 [] body, .ok ⟨5, by decide⟩⟩ :: wait .writable)
      (.pending, q (.tcpWrite 2 7)) := .call _ (.call _ (.call _ (.pure _)))
  have h₅ : Yields ((q (.tcpWrite 2 7)).act .ready)
      (⟨.writeTcp 2 [] (body.drop 5), .ok ⟨7, by decide⟩⟩ :: wait .readable)
      (.pending, q (.tcpRead 2 .start)) := .call _ (.call _ (.call _ (.pure _)))
  have h := Query.Visits.cons h₀ (.cons h₁ (.cons h₂ (.cons h₃ (.cons h₄ (.cons h₅ (.nil _))))))
  exact ⟨_, _, _, _, h, rfl, rfl, request_framing h⟩

end DnsClient
