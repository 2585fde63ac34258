import DnsClient.Proofs.Query.Response

/-!
How a reply is taken off a stream.

The server sends some stream, and reads bring it piece by piece, cut anywhere (`Delivers`). What the
reader holds depends on the octets read so far alone (`StreamReader.Holds`). As these begin the
stream, the length in the first two octets of the stream is the length that the reader goes by; so
the room for a read ends with the length or with the frame, and the read that brings the last octet
of the frame is the one that completes the message.
-/

namespace DnsClient

open Program

/-! ### The frame -/

/-- How far the frame reaches that a stream begins with: over the length and the message. -/
def frameEnd (stream : Octets) : Nat := 2 + Octets.toNat (stream.take 2)

/-- The message in the frame that a stream begins with. -/
def frameBody (stream : Octets) : Octets := (stream.drop 2).take (Octets.toNat (stream.take 2))

/-- What is read are pieces of the stream, one after the other. Nothing is read only where the
stream ends, or where there is no room. -/
structure Delivers (stream : Octets) (t : List Event) : Prop where
  pieces : streamed t <+: stream
  ends : ∀ u n size o v, t = u ++ ⟨.readTcp n size, .ok o⟩ :: v → o.1 = [] →
    size = 0 ∨ streamed u = stream

/-- Whether the event is a read that brings nothing. -/
def Program.Event.isEmptyRead : Event → Bool
  | ⟨.readTcp .., .ok o⟩ => o.1.isEmpty
  | _ => false

section
variable {stream o m : Octets} {reader : StreamReader} {t : List Event}

/-- Reads deliver what they bring if they all bring something. -/
lemma delivers_of_any (hs : streamed t <+: stream) (h : t.any Event.isEmptyRead = false) :
    Delivers stream t where
  pieces := hs
  ends u n size o v ht ho := by
    have hn := List.any_eq_false.1 h ⟨.readTcp n size, .ok o⟩ (by simp [ht])
    simp [Event.isEmptyRead, ho] at hn

lemma take_two_of_isPrefix (h : o <+: stream) (hl : 2 ≤ o.length) :
    stream.take 2 = o.take 2 := by
  obtain ⟨p, rfl⟩ := h
  exact List.take_append_of_le_length hl

lemma two_le_frameEnd : 2 ≤ frameEnd stream := Nat.le_add_right _ _

/-- Octets that make up a frame, and begin a stream, are the frame that the stream begins with. -/
lemma Framed.of_isPrefix (h : Framed o m) (hs : o <+: stream) :
    o.length = frameEnd stream ∧ m = frameBody stream := by
  obtain ⟨p, hp, hm, rfl⟩ := h
  obtain ⟨rest, rfl⟩ := hs
  have ht : (p ++ m ++ rest).take 2 = p := by
    rw [List.append_assoc, List.take_append_of_le_length (Nat.le_of_eq hp.symm),
      List.take_of_length_le (Nat.le_of_eq hp)]
  have hd : (p ++ m ++ rest).drop 2 = m ++ rest := by
    rw [List.append_assoc, ← hp, List.drop_left]
  constructor
  · rw [frameEnd, ht, hm, List.length_append, hp]
  · rw [frameBody, ht, hd, hm, List.take_left]

namespace StreamReader

/-- The room ends with the length while that is being read, and with the frame after that. -/
lemma Holds.length_add_room (h : reader.Holds o) (hs : o <+: stream) :
    o.length + reader.room = if o.length < 2 then 2 else frameEnd stream := by
  cases reader with
  | length got =>
    obtain ⟨rfl, hl⟩ := h
    rw [if_pos hl, room]
    omega
  | body size got =>
    obtain ⟨p, hp, hsize, rfl, hl⟩ := h
    have hge : 2 ≤ (p ++ got).length := by
      rw [List.length_append]
      omega
    have ht : stream.take 2 = p := by
      rw [take_two_of_isPrefix hs hge, List.take_append_of_le_length (Nat.le_of_eq hp.symm),
        List.take_of_length_le (Nat.le_of_eq hp)]
    rw [if_neg (Nat.not_lt.2 hge), frameEnd, ht, hsize, List.length_append, room]
    omega

lemma Holds.room_pos (h : reader.Holds o) : 0 < reader.room := by
  cases reader with
  | length got =>
    obtain ⟨rfl, hl⟩ := h
    rw [room]
    omega
  | body size got =>
    obtain ⟨p, -, -, rfl, hl⟩ := h
    rw [room]
    omega

lemma Holds.length_add_room_le (h : reader.Holds o) (hs : o <+: stream) :
    o.length + reader.room ≤ frameEnd stream := by
  rw [h.length_add_room hs]
  split
  · exact two_le_frameEnd
  · exact Nat.le_refl _

lemma Holds.length_lt (h : reader.Holds o) (hs : o <+: stream) : o.length < frameEnd stream :=
  Nat.lt_of_lt_of_le (Nat.lt_add_of_pos_right h.room_pos) (h.length_add_room_le hs)

end StreamReader

end

namespace Query

/-! ### Calls -/

/-- The query ends with what these octets are as a reply. -/
def Replied (q : Query) (o : Octets) (r : Step × Query) : Prop :=
  match Message.ofOctets? o with
  | none => q.FailsWith .shortMessage r
  | some m =>
    if m.id = q.request.id then r = (.done (.ok m), q.close) else q.FailsWith .wrongReply r

/-- What the query does with the answer to a read, when `o` was read of the stream before. -/
def Took (q : Query) (stream o : Octets) (n : Nat) (x : Except IoError Octets)
    (r : Step × Query) : Prop :=
  match x with
  | .ok p =>
    if o = stream then p = [] ∧ q.FailsWith .streamEnd r
    else if o.length + p.length < frameEnd stream then
      p ≠ [] ∧ ∃ reader, Armed { q with phase := .tcpRead n reader } r
    else p ≠ [] ∧ q.Replied (frameBody stream) r
  | .error e => if e.isRetry then q.Armed r else q.FailsWith (.streamRead e) r

/-- A call that reads, behind events that brought the octets `o` of the stream. -/
structure Reading (stream o : Octets) (v : Visit) (n : Nat) (reader : StreamReader) : Prop where
  /-- The octets read are in place, and the cursor of the reader is in range. -/
  holds : reader.Holds o
  incomplete : o.length < frameEnd stream
  room : 0 < reader.room
  /-- The room ends where the length ends, and with the frame after that. -/
  fits : o.length + reader.room = if o.length < 2 then 2 else frameEnd stream
  read : ∃ x t, v.calls = ⟨.readTcp n reader.room, x⟩ :: t ∧ reads t = [] ∧
    v.before.Took stream o n (x.map (·.1)) (v.step, v.after)

variable {t u : List Event} {q q' : Query} {r : Step × Query} {a : Action} {vs : List Visit}
  {n : Nat} {stream o : Octets} {reader : StreamReader}

lemma streamed_cons_read {size : Nat} (x : (Call.readTcp n size).Answer) :
    streamed (⟨.readTcp n size, x⟩ :: t) = (x.map (·.1)).toOption.getD [] ++ streamed t := by
  cases x <;> rfl

lemma length_streamed_read {size : Nat} (x : (Call.readTcp n size).Answer) (ht : reads t = []) :
    (streamed (⟨.readTcp n size, x⟩ :: t)).length ≤ size := by
  rw [streamed_cons_read, streamed_eq_nil ht, List.append_nil]
  cases x with
  | ok o => exact o.2
  | error e => exact Nat.zero_le _

lemma replied {o : Octets}
    (h : match Message.ofOctets? o with
      | none => r = q.failed .shortMessage
      | some m =>
        if m.id = q.request.id then r = (.done (.ok m), q.close) else r = q.failed .wrongReply) :
    q.Replied o r := by
  unfold Replied
  cases hm : Message.ofOctets? o with
  | none =>
    simp only [hm] at h
    exact h ▸ failsWith_failed rfl
  | some m =>
    simp only [hm] at h ⊢
    split_ifs at h ⊢
    · exact h
    · exact h ▸ failsWith_failed rfl

/-- A call in the reading phase reads once, and goes by what has come of the stream with that. -/
lemma tcpRead_reads (hp : q.phase = .tcpRead n reader) (hr : reader.Holds o)
    (h : Yields (q.tcpRead n reader) u r) (hs : o ++ streamed u <+: stream)
    (he : ∀ size p v, u = ⟨.readTcp n size, .ok p⟩ :: v → p.1 = [] → size = 0 ∨ o = stream) :
    ∃ x t, u = ⟨.readTcp n reader.room, x⟩ :: t ∧ reads t = [] ∧
      q.Took stream o n (x.map (·.1)) r := by
  obtain ⟨x, v, rfl, hv, hx⟩ := yields_tcpRead (by rw [hp]; rfl) h
  refine ⟨x, v, rfl, hv.reads_eq, ?_⟩
  rw [streamed_cons_read, streamed_eq_nil hv.reads_eq, List.append_nil] at hs
  cases x with
  | ok p =>
    have hs : o ++ p.1 <+: stream := hs
    have hlen : (o ++ p.1).length = o.length + p.1.length := List.length_append
    simp only [Took, Except.map] at hx ⊢
    by_cases ho : o = stream
    · -- nothing is left of the stream
      have hp0 : p.1 = [] := by
        have hle := hs.length_le
        rw [hlen, ho] at hle
        exact List.eq_nil_of_length_eq_zero (by omega)
      rw [if_pos hp0] at hx
      rw [if_pos ho]
      exact ⟨hp0, hx ▸ failsWith_failed rfl⟩
    · have hp0 : p.1 ≠ [] := fun h0 =>
        (he _ p v rfl h0).elim (fun h => absurd h (Nat.ne_of_gt hr.room_pos)) ho
      rw [if_neg hp0] at hx
      rw [if_neg ho, ← hlen]
      have ha := hr.advance p.2
      cases hb : reader.advance p.1 with
      | inl body =>
        simp only [hb] at hx ha
        obtain ⟨hend, rfl⟩ := ha.of_isPrefix hs
        rw [if_neg (Nat.not_lt.2 (Nat.le_of_eq hend.symm))]
        exact ⟨hp0, replied hx⟩
      | inr reader' =>
        simp only [hb] at hx ha
        rw [if_pos (ha.length_lt hs)]
        exact ⟨hp0, reader', hx⟩
  | error e =>
    simp only [Took, Except.map] at hx ⊢
    split_ifs at hx ⊢
    · exact hx
    · exact hx ▸ failsWith_failed rfl

/-! ### Runs -/

lemma reads_tcpConnect (h : Yields q.tcpConnect u r) : reads u = [] := by
  obtain ⟨t, x, v, rfl, ht, hv, -⟩ := yields_tcpConnect h
  have hc : reads (⟨.connectTcp q.params.server, x⟩ :: v) = reads v := rfl
  rw [reads_append, ht.reads_eq, hc, hv.reads_eq]
  rfl

lemma reads_tcpWrite {w : Nat} (hs : q.phase.socket? = some ⟨.tcp, n⟩)
    (h : Yields (q.tcpWrite n w) u r) : reads u = [] := by
  obtain ⟨-, hq, -⟩ | ⟨-, x, v, rfl, hv, -⟩ := yields_tcpWrite hs h
  · exact hq.reads_eq
  · exact hv.reads_eq

lemma reads_tcpConnected (hs : q.phase.socket? = some ⟨.tcp, n⟩)
    (h : Yields (q.tcpConnected n) u r) : reads u = [] := by
  obtain ⟨x, v, rfl, hx⟩ := yields_tcpConnected hs h
  match x with
  | .error e | .ok (some e) => exact hx.1.reads_eq
  | .ok none =>
    obtain ⟨y, w, rfl, hy⟩ := hx
    cases y with
    | ok _ =>
      have hw : reads w = [] := reads_tcpWrite (q := { q with phase := .tcpWrite n 0 }) rfl hy
      exact hw
    | error e => exact hy.1.reads_eq

/-- A query reads only when its socket is ready, in the reading phase. -/
lemma Move.reads (h : Move q a u r) :
    reads u = [] ∨ a = .ready ∧ ∃ n reader, q.phase = .tcpRead n reader := by
  cases h with
  | rests _ => exact .inl rfl
  | givesUp ht _ => exact .inl ht.reads_eq
  | attempts _ _ h =>
    refine .inl ?_
    cases h with
    | goesOn hu => exact reads_eq_nil hu.purpose
    | succeeds _ _ _ _ _ hv => exact hv.reads_eq
    | ends hu _ _ h _ => rw [reads_append, reads_eq_nil hu.purpose, reads_tcpConnect h]; rfl
  | starts _ _ h => exact .inl (reads_tcpConnect h)
  | streams hs h =>
    unfold ready at h
    split at h
    case h_5 hp => exact .inl (reads_tcpConnected (by rw [hp]; rfl) h)
    case h_6 hp => exact .inl (reads_tcpWrite (by rw [hp]; rfl) h)
    case h_7 hp => exact .inr ⟨rfl, _, _, hp⟩
    all_goals next hp => simp [hp, Phase.socket?] at hs

/-- What a run reads stays within the frame. -/
lemma Visits.within (h : Visits q vs q') (hb : Brought q.params t q.phase)
    (hs : streamed (t ++ eventsOf vs) <+: stream) (hl : (streamed t).length ≤ frameEnd stream) :
    (streamed (t ++ eventsOf vs)).length ≤ frameEnd stream := by
  induction h generalizing t with
  | nil q => rwa [eventsOf_nil, List.append_nil]
  | @cons q q₁ q₂ a u s vs h _ ih =>
    have hm := move_of_act h
    have hb' := (hm.brings hb).brought
    rw [← hm.leads.same.params] at hb'
    rw [eventsOf_cons, ← List.append_assoc] at hs ⊢
    refine ih hb' hs ?_
    have ht : streamed t ++ streamed u <+: stream := by
      rw [streamed_append, streamed_append] at hs
      exact (List.prefix_append _ _).trans hs
    have hsum : streamed (t ++ u) = streamed t ++ streamed u := streamed_append t u
    rw [hsum, List.length_append]
    obtain hr | ⟨rfl, n, reader, hp⟩ := hm.reads
    · rwa [streamed_eq_nil hr]
    · rw [hp] at hb
      simp only [act, ready, hp] at h
      obtain ⟨x, v, rfl, hv, -⟩ := yields_tcpRead (by rw [hp]; rfl) h
      have hle := hb.2.2.length_add_room_le ((List.prefix_append _ _).trans ht)
      have hu := length_streamed_read x hv.reads_eq
      omega

end Query

/-- What a run does for the frame that the stream to it begins with. -/
structure ReplyFraming (stream : Octets) (vs : List Query.Visit) (q : Query) : Prop where
  /-- No octet behind the frame is read. -/
  within : (streamed (Query.eventsOf vs)).length ≤ frameEnd stream
  /-- A query that goes on to read has not come to the end of the frame. -/
  unfinished : ∀ n reader, q.phase = .tcpRead n reader →
    (streamed (Query.eventsOf vs)).length < frameEnd stream
  /-- Octets are read only when the socket is ready, in the reading phase. -/
  only : ∀ v ∈ vs, reads v.calls = [] ∨
    v.action = .ready ∧ ∃ n reader, v.before.phase = .tcpRead n reader
  reading : ∀ ws v ws' n reader, vs = ws ++ v :: ws' → v.before.phase = .tcpRead n reader →
    v.action = .ready → Query.Reading stream (streamed (Query.eventsOf ws)) v n reader

/-- **The reply on the stream**: however the stream is cut into reads, and whatever goes wrong in
between, a query takes just the frame off it, and ends with the message in it. -/
theorem reply_framing {id : QueryId} {request : Message} {params : QueryParams} {stream : Octets}
    {vs : List Query.Visit} {q : Query} (h : Query.Visits { id, request, params } vs q)
    (hd : Delivers stream (Query.eventsOf vs)) : ReplyFraming stream vs q := by
  have hb := h.brings (t := []) rfl
  refine ⟨h.within (t := []) rfl hd.pieces (Nat.zero_le _), fun n reader hp => ?_,
    fun v hv => (h.move v hv).reads, ?_⟩
  · have hq := hb.1
    rw [hp] at hq
    exact hq.2.2.length_lt hd.pieces
  · rintro ws v ws' n reader rfl hp ha
    obtain ⟨hws, hy, -⟩ := h.split
    have hh := (hws.brings (t := []) rfl).1
    rw [hp] at hh
    have hholds : reader.Holds (streamed (Query.eventsOf ws)) := hh.2.2
    have hs := hd.pieces
    rw [Query.eventsOf_append, Query.eventsOf_cons, streamed_append, streamed_append,
      ← List.append_assoc] at hs
    have hs' : streamed (Query.eventsOf ws) ++ streamed v.calls <+: stream :=
      (List.prefix_append _ _).trans hs
    have hws' := (List.prefix_append _ _).trans hs'
    rw [ha] at hy
    simp only [Query.act, Query.ready, hp] at hy
    refine ⟨hholds, hholds.length_lt hws', hholds.room_pos, hholds.length_add_room hws', ?_⟩
    refine Query.tcpRead_reads hp hholds hy hs' fun size p u hu hp0 => ?_
    refine hd.ends (Query.eventsOf ws) n size p (u ++ Query.eventsOf ws') ?_ hp0
    rw [Query.eventsOf_append, Query.eventsOf_cons, hu]
    rfl

/-- A reply that is read in four pieces: each octet of the length alone, a failure for the moment, a
part of the message, and its rest. What follows it on the stream stays there. -/
theorem reply_framing_pieces : ∃ (request : Message) (params : QueryParams) (stream : Octets)
    (vs : List Query.Visit) (q : Query), Query.Visits { id := 7, request, params } vs q ∧
      Delivers stream (Query.eventsOf vs) ∧ stream.length = 17 ∧
      vs.map (fun v => (streamed v.calls).length) = [0, 0, 1, 0, 1, 5, 7] ∧
      vs.getLast?.map (·.step) = some (.done (.ok .blank)) ∧ ReplyFraming stream vs q := by
  let params : QueryParams := { server := ⟨.localhost, 53⟩, mode := .tcpOnly }
  let q (phase : Phase) : Query := { id := 7, request := .blank, params, phase, registered := true }
  let body := Message.blank.octets
  let stream : Octets := 0 :: 12 :: body ++ [1, 2, 3]
  let wait (i : Interest) : List Event := [⟨.wake, ()⟩, ⟨.reregister ⟨.tcp, 2⟩ 7 i, .ok ()⟩]
  have h₀ : Yields (Query.act { id := 7, request := .blank, params } .start)
      [⟨.connectTcp params.server, .ok 2⟩, ⟨.wake, ()⟩, ⟨.register ⟨.tcp, 2⟩ 7 .writable, .ok ()⟩]
      (.pending, q (.tcpConnect 2)) := .call _ (.call _ (.call _ (.pure _)))
  have hw : Yields ((q (.tcpWrite 2 0)).tcpWrite 2 0)
      (⟨.writeTcp 2 (Octets.ofNat 2 12) body, .ok ⟨14, by decide⟩⟩ :: wait .readable)
      (.pending, q (.tcpRead 2 .start)) := .call _ (.call _ (.call _ (.pure _)))
  have h₁ : Yields ((q (.tcpConnect 2)).act .ready)
      (⟨.takeError 2, .ok none⟩ :: ⟨.peerAddress 2, .ok ()⟩ ::
        ⟨.writeTcp 2 (Octets.ofNat 2 12) body, .ok ⟨14, by decide⟩⟩ :: wait .readable)
      (.pending, q (.tcpRead 2 .start)) := .call _ (.call _ hw)
  have h₂ : Yields ((q (.tcpRead 2 .start)).act .ready)
      (⟨.readTcp 2 2, .ok ⟨[0], by decide⟩⟩ :: wait .readable)
      (.pending, q (.tcpRead 2 (.length [0]))) := .call _ (.call _ (.call _ (.pure _)))
  have h₃ : Yields ((q (.tcpRead 2 (.length [0]))).act .ready)
      (⟨.readTcp 2 1, .error ⟨.wouldBlock, "later"⟩⟩ :: wait .readable)
      (.pending, q (.tcpRead 2 (.length [0]))) := .call _ (.call _ (.call _ (.pure _)))
  have h₄ : Yields ((q (.tcpRead 2 (.length [0]))).act .ready)
      (⟨.readTcp 2 1, .ok ⟨[12], by decide⟩⟩ :: wait .readable)
      (.pending, q (.tcpRead 2 (.body 12 []))) := .call _ (.call _ (.call _ (.pure _)))
  have h₅ : Yields ((q (.tcpRead 2 (.body 12 []))).act .ready)
      (⟨.readTcp 2 12, .ok ⟨body.take 5, by decide⟩⟩ :: wait .readable)
      (.pending, q (.tcpRead 2 (.body 12 (body.take 5)))) := .call _ (.call _ (.call _ (.pure _)))
  have h₆ : Yields ((q (.tcpRead 2 (.body 12 (body.take 5)))).act .ready)
      [⟨.readTcp 2 7, .ok ⟨body.drop 5, by decide⟩⟩, ⟨.wake, ()⟩,
        ⟨.deregister ⟨.tcp, 2⟩, .ok ()⟩, ⟨.close ⟨.tcp, 2⟩, ()⟩]
      (.done (.ok .blank), (q .closed).close) :=
    .call _ (.call _ (.call _ (.call _ (.pure _))))
  have h := Query.Visits.cons h₀ (.cons h₁ (.cons h₂ (.cons h₃ (.cons h₄ (.cons h₅
    (.cons h₆ (.nil _)))))))
  refine ⟨_, _, stream, _, _, h, ?_, rfl, rfl, rfl, reply_framing h ?_⟩
  all_goals exact delivers_of_any ⟨[1, 2, 3], rfl⟩ rfl

end DnsClient
