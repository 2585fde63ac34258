import DnsClient.Proofs.Query.Arming
import DnsClient.Proofs.Query.Failures
import DnsClient.Proofs.Query.Stage

/-!
Tries that come to nothing.

A socket may be reported ready when it is not, and then an operation on it asks for another try. The
stage of a query does not change by that (`Stage.along_filter`), and its calls are fixed by the
stage and the results (`Stage.eq_of_results`). So a run with such tries in between does what the run
without them does, and a call that comes to nothing else only arms the socket anew.
-/

namespace DnsClient

open Program

/-- An operation on a socket asks for another try. -/
def SocketResult.isRetry : SocketResult → Bool
  | .sent (.error e) | .received (.error e) | .written (.error e) | .read (.error e) => e.isRetry
  | _ => false

/-- The second results are the first ones with tries in between that come to nothing. -/
inductive Retried : List SocketResult → List SocketResult → Prop where
  | nil : Retried [] []
  | same {xs ys : List SocketResult} (r : SocketResult) (h : Retried xs ys) :
    Retried (r :: xs) (r :: ys)
  | again {xs ys : List SocketResult} {r : SocketResult} (hr : r.isRetry) (h : Retried xs ys) :
    Retried xs (r :: ys)
  /-- The connection does not stand yet. -/
  | unconnected {xs ys : List SocketResult} {e : IoError}
    (he : e.kind = .notConnected ∨ e.isRetry) (h : Retried xs ys) :
    Retried xs (.pendingError (.ok none) :: .peer (.error e) :: ys)

/-- The results of the calls on sockets. -/
def results (t : List Event) : List SocketResult := t.filterMap Event.result?

/-- A call on a socket that does not only ask for another try. -/
def Program.Event.counts (v : Event) : Bool := v.result?.any (!·.isIdle)

/-- A call that opens a socket, or tells a UDP socket where to send to. -/
def Program.Event.opens : Event → Bool
  | ⟨.bindUdp _, _⟩ | ⟨.connectUdp .., _⟩ | ⟨.connectTcp _, _⟩ => true
  | _ => false

/-- A send or a write that a socket accepts octets of. -/
def Program.Event.hands : Event → Bool
  | ⟨.sendUdp .., .ok _⟩ | ⟨.writeTcp .., .ok _⟩ => true
  | _ => false

/-- All registrations succeed. -/
def Registers (t : List Event) : Prop :=
  ∀ v ∈ t, v.arming?.all (·.2.2.2.isOk)

def Step.verdict? : Step → Option (Except QueryError Message)
  | .pending => none
  | .done x => some x

/-- What a query reports, if it does. -/
def Query.verdicts (vs : List Query.Visit) : List (Except QueryError Message) :=
  vs.filterMap (·.step.verdict?)

variable {t t' u : List Event} {v w : Event} {xs ys : List SocketResult}

lemma SocketResult.isIdle_of_isRetry {r : SocketResult} (h : r.isRetry) : r.isIdle := by
  unfold isRetry at h
  split at h
  all_goals first | exact h | cases h

lemma Retried.filter_eq (h : Retried xs ys) :
    xs.filter (!·.isIdle) = ys.filter (!·.isIdle) := by
  induction h with
  | nil => rfl
  | same r _ ih => simp only [List.filter_cons, ih]
  | again hr _ ih => simp [SocketResult.isIdle_of_isRetry hr, ih]
  | @unconnected xs ys e he _ ih =>
    have hi : (SocketResult.peer (.error e)).isIdle := decide_eq_true he
    have hn : (SocketResult.pendingError (.ok none)).isIdle := rfl
    simp [hi, hn, ih]

lemma results_append : results (t ++ u) = results t ++ results u := List.filterMap_append

lemma results_cons {r : SocketResult} (h : v.result? = some r) :
    results (v :: t) = r :: results t := List.filterMap_cons_some h

lemma results_filter : results (t.filter Event.counts) = (results t).filter (!·.isIdle) := by
  induction t with
  | nil => rfl
  | cons v t ih =>
    rcases hr : v.result? with _ | r
    · simpa [results, Event.counts, hr] using ih
    · cases hi : r.isIdle <;> simpa [results, Event.counts, hr, hi] using ih

lemma Registers.append : Registers (t ++ u) ↔ Registers t ∧ Registers u := List.forall_mem_append

namespace Stage

variable {request : Message} {params : QueryParams} {s : Stage}

/-- The stage that results lead to. -/
def along (request : Message) (s : Stage) (rs : List SocketResult) : Stage :=
  rs.foldl (Stage.next request) s

lemma along_append : s.along request (xs ++ ys) = (s.along request xs).along request ys :=
  List.foldl_append

lemma next_of_isIdle {r : SocketResult} (h : r.isIdle) : s.next request r = s := by
  cases s with
  | waiting p es => exact next_idle h
  | unbound | bound | turning | ended =>
    unfold SocketResult.isIdle at h
    split at h <;> first | rfl | cases h

/-- Tries that come to nothing do not change the stage. -/
lemma along_filter : s.along request (xs.filter (!·.isIdle)) = s.along request xs := by
  induction xs generalizing s with
  | nil => rfl
  | cons r xs ih =>
    cases hi : r.isIdle with
    | true =>
      simp only [List.filter_cons, hi, Bool.not_true, Bool.false_eq_true, if_false, ih]
      simp only [along, List.foldl_cons, next_of_isIdle hi]
    | false =>
      simp only [List.filter_cons, hi, Bool.not_false, if_true]
      exact ih

lemma after_eq (s : Stage) (request : Message) (params : QueryParams) (h : Registers [v]) :
    (account request params).after (some s) v = some (s.along request (results [v])) := by
  rcases ha : v.arming? with _ | ⟨a, b, c, x⟩
  · rcases hr : v.result? with _ | r <;> simp [account, results, along, ha, hr]
  · have hx := h v (List.mem_singleton_self v)
    rw [ha] at hx
    cases x with
    | error e => cases hx
    | ok _ => rcases hr : v.result? with _ | r <;> simp [account, results, along, ha, hr]

/-- With all registrations in place, the stage is what the results lead to. -/
lemma afterAll_eq (h : Registers t) :
    (account request params).afterAll (some s) t = some (s.along request (results t)) := by
  induction t generalizing s with
  | nil => rfl
  | cons v t ih =>
    obtain ⟨hv, ht⟩ := Registers.append (t := [v]).1 h
    rw [← List.singleton_append, Account.afterAll_append, results_append, along_append, ← ih ht,
      ← after_eq s request params hv]
    rfl

/-- At one stage the result tells the call. -/
lemma event_eq (hv : v.1 ∈ s.calls request params) (hw : w.1 ∈ s.calls request params)
    (h : v.result? = w.result?) : v = w := by
  have one {c : Call} (hinj : ∀ x y : c.Answer, Event.result? ⟨c, x⟩ = Event.result? ⟨c, y⟩ → x = y)
      (hv : v.1 = c) (hw : w.1 = c) : v = w := by
    obtain ⟨_, x⟩ := v
    obtain ⟨_, y⟩ := w
    subst hv
    obtain rfl : _ = _ := hw
    rw [hinj x y h]
  have val {α : Type} {p : α → Prop} {x y : Except IoError { a // p a }}
      (h : x.map Subtype.val = y.map Subtype.val) : x = y := by
    cases x <;> cases y <;> simp [Except.map] at h ⊢
    · exact h
    · exact Subtype.ext h
  unfold calls at hv hw
  split at hv <;> simp only [List.mem_cons, List.not_mem_nil, or_false] at hv hw
  case h_1 | h_2 | h_3 => exact one (fun x y h => by simpa [Event.result?] using h) hv hw
  case h_4 | h_5 | h_7 | h_8 =>
    exact one (fun x y h => val (by simpa [Event.result?] using h)) hv hw
  case h_6 =>
    -- two calls may come while the query connects, and their results are of two kinds
    obtain ⟨_, x⟩ := v
    obtain ⟨_, y⟩ := w
    rcases hv with rfl | rfl <;> rcases hw with rfl | rfl <;> simp [Event.result?] at h
    all_goals rw [h]

lemma proper_filter (ht : Registers t) (h : (account request params).Proper (some s) t) :
    (account request params).Proper (some s) (t.filter Event.counts) := by
  induction t generalizing s with
  | nil => trivial
  | cons v t ih =>
    obtain ⟨hv, ht⟩ := Registers.append (t := [v]).1 ht
    obtain ⟨ha, h⟩ := h
    rw [after_eq s request params hv] at h
    have ih := ih ht h
    rw [List.filter_cons]
    split_ifs with hc
    · exact ⟨ha, by rwa [after_eq s request params hv]⟩
    · rcases hr : v.result? with _ | r
      · simpa [results, along, hr] using ih
      · have hi : r.isIdle := by simpa [Event.counts, hr] using hc
        simpa [results, hr, along, next_of_isIdle hi] using ih

lemma eq_of_results (hc : ∀ v ∈ t, v.result?.isSome) (hc' : ∀ v ∈ t', v.result?.isSome)
    (ht : Registers t) (h : (account request params).Proper (some s) t)
    (h' : (account request params).Proper (some s) t') (hr : results t = results t') : t = t' := by
  have allowed {s : Stage} {v : Event} (hv : v.result?.isSome)
      (ha : (account request params).allows (some s) v.1) : v.1 ∈ s.calls request params := by
    refine (ha s rfl).resolve_right fun hn => ?_
    rw [show v.result? = none from hn v.2] at hv
    cases hv
  induction t generalizing s t' with
  | nil =>
    rcases t' with _ | ⟨w, t'⟩
    · rfl
    · obtain ⟨r, hw⟩ := Option.isSome_iff_exists.1 (hc' w (.head _))
      rw [results_cons hw] at hr
      cases hr
  | cons v t ih =>
    obtain ⟨r, hv⟩ := Option.isSome_iff_exists.1 (hc v (.head _))
    rw [results_cons hv] at hr
    rcases t' with _ | ⟨w, t'⟩
    · cases hr
    · obtain ⟨r', hw⟩ := Option.isSome_iff_exists.1 (hc' w (.head _))
      rw [results_cons hw] at hr
      obtain ⟨rfl, hr'⟩ := List.cons_eq_cons.1 hr
      obtain rfl : v = w := event_eq (allowed (hc v (.head _)) h.1) (allowed (hc' w (.head _)) h'.1)
        (hv.trans hw.symm)
      obtain ⟨ht₁, ht⟩ := Registers.append (t := [v]).1 ht
      have hn := after_eq s request params ht₁
      refine congrArg (v :: ·) (ih (List.forall_mem_cons.1 hc).2 (List.forall_mem_cons.1 hc').2 ht
        (s := s.along request (results [v])) ?_ ?_ hr')
      · exact hn ▸ h.2
      · exact hn ▸ h'.2

/-- From one stage on, runs that differ in tries that come to nothing make the same calls, with the
same answers, apart from those. -/
lemma filter_counts_eq (ht : Registers t) (ht' : Registers t')
    (h : (account request params).Proper (some s) t)
    (h' : (account request params).Proper (some s) t')
    (hr : (results t).filter (!·.isIdle) = (results t').filter (!·.isIdle)) :
    t.filter Event.counts = t'.filter Event.counts := by
  have hc (u : List Event) : ∀ v ∈ u.filter Event.counts, v.result?.isSome := by
    intro v hv
    have hv := (List.mem_filter.1 hv).2
    rcases hr : v.result? with _ | r
    · simp [Event.counts, hr] at hv
    · rfl
  refine eq_of_results (hc t) (hc t') (fun v hv => ht v ((List.mem_filter.1 hv).1))
    (proper_filter ht h) (proper_filter ht' h') ?_
  rw [results_filter, results_filter, hr]

end Stage

namespace Query

variable {q q' : Query} {s : Stage} {vs : List Visit} {r : Step × Query} {i : Interest} {n : Nat}

lemma Arrives.verdict?_eq (h : Arrives r s) : s.verdict? = r.1.verdict? := by
  unfold Arrives at h
  split at h
  · next hp => rw [h.2, hp]; rfl
  · next x hp => rw [h, hp]; rfl

lemma verdicts_cons (v : Visit) (vs : List Visit) :
    verdicts (v :: vs) = v.step.verdict?.toList ++ verdicts vs := by
  rcases h : v.step.verdict? with _ | x <;> simp [verdicts, h]

/-- A run keeps to the stages that its results lead to, and reports what the last one says. -/
lemma Visits.stage (h : Visits q vs q') (hq : q.At s) (hc : q.phase ≠ .closed)
    (ht : Registers (eventsOf vs)) :
    (Stage.account q.request q.params).Proper (some s) (eventsOf vs) ∧
      (s.along q.request (results (eventsOf vs))).verdict?.toList = verdicts vs := by
  induction h generalizing s with
  | nil q => exact ⟨trivial, congrArg Option.toList (hq.verdict? hc)⟩
  | @cons q q₁ q₂ a t x vs h hs ih =>
    have hl := (move_of_act h).leads
    obtain ⟨ht, hts⟩ := Registers.append.1 ht
    obtain ⟨hp, ha⟩ := (reaches_act a hq hc).yields h
    rw [Stage.afterAll_eq ht] at ha
    have ha := ha _ rfl
    rw [eventsOf_cons, Account.proper_append, Stage.afterAll_eq ht, results_append,
      Stage.along_append, verdicts_cons]
    by_cases hc₁ : q₁.phase = .closed
    · -- whatever ended the query, nothing comes behind
      have he : eventsOf vs = [] := List.flatMap_eq_nil_iff.2 fun w hw => (hs.closed hc₁ w hw).2
      have hn : verdicts vs = [] :=
        List.filterMap_eq_nil_iff.2 fun w hw => by rw [(hs.closed hc₁ w hw).1]; rfl
      rw [he, hn, List.append_nil]
      exact ⟨⟨hp, trivial⟩, congrArg Option.toList ha.verdict?_eq⟩
    · cases x with
      | pending =>
        obtain ⟨hps, hv⟩ := ih ha.1 hc₁ hts
        rw [hl.same.request, hl.same.params] at hps
        rw [hl.same.request] at hv
        exact ⟨⟨hp, hps⟩, hv⟩
      | done x => exact absurd (hl.closed x rfl).1 hc₁

/-! ### Calls that come to nothing -/

/-- All that a call does is to arm the socket anew. -/
structure OnlyArms (v : Visit) : Prop where
  step : v.step = .pending
  after : v.after = v.before
  calls : ∀ s ∈ v.before.phase.socket?, ∃ ops i, v.before.phase.interest? = some i ∧
    (∀ w ∈ ops, w.result?.isSome) ∧
    v.calls = ops ++ [⟨.wake, ()⟩, ⟨.reregister s v.before.id i, .ok ()⟩]

/-- Behind operations that change nothing, a registered socket is armed by registering it anew. -/
lemma onlyArms_arm {x : Step} (ops : List Event) {u : List Event}
    {g : Except QueryError Query → Program (Step × Query)}
    (hr : q.registered = q.phase.socket?.isSome) (hs : q.phase.socket?.isSome)
    (hi : q.phase.interest? = some i) (ho : ∀ w ∈ ops, w.result?.isSome)
    (hg : g (.ok q) = .pure (.pending, q)) (hu : Registers (ops ++ u))
    (h : Yields (q.arm i >>= g) u (x, q')) : OnlyArms ⟨q, .ready, ops ++ u, x, q'⟩ := by
  obtain ⟨sock, hs⟩ := Option.isSome_iff_exists.1 hs
  have hr : q.registered = true := by simp [hr, hs]
  obtain ⟨_, y, v, ha, hv, rfl⟩ := yields_bind.1 h
  simp only [arm, hs, hr, if_true] at ha
  obtain ⟨_, z, _, hz, hy, rfl⟩ := yields_bind.1 ha
  obtain ⟨_, _, rfl, hz'⟩ := yields_perform_bind.1 hz
  obtain rfl := yields_perform.1 hz'
  have hz : z.isOk := hu ⟨.reregister sock q.id i, z⟩ (by simp)
  obtain ⟨_, rfl⟩ : ∃ y, z = .ok y := by cases z <;> [cases hz; exact ⟨_, rfl⟩]
  obtain ⟨rfl, rfl⟩ := yields_pure.1 hy
  rw [show { q with registered := true } = q by rw [← hr], hg] at hv
  obtain ⟨rfl, hx⟩ := yields_pure.1 hv
  obtain ⟨rfl, rfl⟩ := Prod.mk.inj hx
  refine ⟨rfl, rfl, fun s hs' => ⟨ops, i, hi, ho, ?_⟩⟩
  obtain rfl := Option.some.inj (hs.symm.trans hs')
  rfl

/-- A call on a query that waits only arms its socket anew if all it gets is idle. -/
lemma onlyArms_of_idle {x : Step} {f : Failures} (hq : q.Recorded f)
    (hr : q.registered = q.phase.socket?.isSome) (h : Yields q.ready t (x, q'))
    (ht : Registers t) (hi : ∀ r ∈ results t, r.isIdle) : OnlyArms ⟨q, .ready, t, x, q'⟩ := by
  -- an operation with an idle result has the socket armed
  have armed {c : Call} {f : c.Answer → Program (Step × Query)} {i : Interest}
      (hs : q.phase.socket?.isSome) (hp : q.phase.interest? = some i)
      (hc : ∀ y, (Event.result? ⟨c, y⟩).isSome) (h : Yields (perform c >>= f) t (x, q'))
      (hf : ∀ y, (∀ r ∈ Event.result? ⟨c, y⟩, r.isIdle) →
        ∃ g, f y = (q.arm i >>= g) ∧ g (.ok q) = .pure (.pending, q)) :
      OnlyArms ⟨q, .ready, t, x, q'⟩ := by
    obtain ⟨y, u, rfl, hu⟩ := yields_perform_bind.1 h
    obtain ⟨g, hfy, hg⟩ := hf y fun r hr => hi r (List.mem_filterMap.2 ⟨_, .head _, hr⟩)
    rw [hfy] at hu
    exact onlyArms_arm [_] hr hs hp (by simpa using hc y) hg ht hu
  simp only [ready] at h
  split at h
  case h_1 hp | h_2 hp =>
    obtain ⟨rfl, hx⟩ := yields_pure.1 h
    obtain ⟨rfl, rfl⟩ := Prod.mk.inj hx
    exact ⟨rfl, rfl, fun s hs => by simp [hp, Phase.socket?] at hs⟩
  case h_3 hp =>
    refine armed (by rw [hp]; rfl) (by rw [hp]; rfl) (fun _ => rfl) h fun y hy => ?_
    cases y with
    | ok _ => cases hy _ rfl
    | error e => exact ⟨_, if_pos (hy _ rfl), rfl⟩
  case h_4 hp =>
    refine armed (by rw [hp]; rfl) (by rw [hp]; rfl) (fun _ => rfl) h fun y hy => ?_
    cases y with
    | ok _ => cases hy _ rfl
    | error e => exact ⟨_, if_pos (hy _ rfl), rfl⟩
  case h_5 hp =>
    obtain ⟨y, u, rfl, hu⟩ := yields_perform_bind.1 h
    have hy : (SocketResult.pendingError y).isIdle := hi _ (.head _)
    obtain _ | _ | e := y
    · cases hy
    · obtain ⟨z, v, rfl, hv⟩ := yields_perform_bind.1 hu
      have hz : (SocketResult.peer z).isIdle := hi _ (.tail _ (.head _))
      cases z with
      | ok _ => cases hz
      | error e =>
        have he : e.kind = .notConnected ∨ e.isRetry := of_decide_eq_true hz
        simp only [he, if_true] at hv
        exact onlyArms_arm [_, _] hr (by rw [hp]; rfl) (by rw [hp]; rfl)
          (by simp [Event.result?]) rfl ht hv
    · cases hy
  case h_6 n w hp =>
    obtain ⟨-, -, hl⟩ : _ ∧ _ ∧ _ := by simpa only [Recorded, hp] using hq
    rw [tcpWrite, if_neg (Nat.not_lt.2 hl)] at h
    refine armed (by rw [hp]; rfl) (by rw [hp]; rfl) (fun _ => rfl) h fun y hy => ?_
    cases y with
    | ok _ => cases hy _ rfl
    | error e => exact ⟨_, if_pos (hy _ rfl), rfl⟩
  case h_7 hp =>
    refine armed (by rw [hp]; rfl) (by rw [hp]; rfl) (fun _ => rfl) h fun y hy => ?_
    cases y with
    | ok _ => cases hy _ rfl
    | error e => exact ⟨_, if_pos (hy _ rfl), rfl⟩

end Query

lemma filter_opens (t : List Event) :
    (t.filter Event.counts).filter Event.opens = t.filter Event.opens := by
  rw [List.filter_filter]
  refine List.filter_congr fun ⟨c, x⟩ _ => ?_
  cases c <;> simp [Event.opens, Event.counts, Event.result?, SocketResult.isIdle]

lemma filter_hands (t : List Event) :
    (t.filter Event.counts).filter Event.hands = t.filter Event.hands := by
  rw [List.filter_filter]
  refine List.filter_congr fun ⟨c, x⟩ _ => ?_
  cases c with
  | sendUdp | writeTcp =>
    cases x <;> simp [Event.hands, Event.counts, Event.result?, SocketResult.isIdle, Except.map]
  | _ => rfl

/-- **Tries that come to nothing are harmless**: of two runs of a query in which all sockets are
registered, and where the second gets the results of the first with such tries in between, both
report the same, open the same sockets and hand them the same octets. A call of the second that gets
nothing else only arms its socket anew. -/
theorem retries_harmless {id id' : QueryId} {request : Message} {params : QueryParams}
    {vs ws : List Query.Visit} {q q' : Query}
    (h : Query.Visits { id, request, params } vs q)
    (h' : Query.Visits { id := id', request, params } ws q')
    (hr : Registers (Query.eventsOf vs)) (hr' : Registers (Query.eventsOf ws))
    (hx : Retried (results (Query.eventsOf vs)) (results (Query.eventsOf ws))) :
    Query.verdicts ws = Query.verdicts vs ∧
      (Query.eventsOf ws).filter Event.opens = (Query.eventsOf vs).filter Event.opens ∧
      (Query.eventsOf ws).filter Event.hands = (Query.eventsOf vs).filter Event.hands ∧
      ∀ w ∈ ws, w.action = .ready → (∀ r ∈ results w.calls, r.isIdle) → Query.OnlyArms w := by
  have hq {id : QueryId} : Query.At { id, request, params } (.start params.mode) := ⟨rfl, rfl⟩
  obtain ⟨hp, hv⟩ := h.stage hq nofun hr
  obtain ⟨hp', hv'⟩ := h'.stage hq nofun hr'
  have hf := hx.filter_eq
  have hc := Stage.filter_counts_eq hr' hr hp' hp hf.symm
  refine ⟨?_, ?_, ?_, ?_⟩
  · rw [← hv, ← hv', ← Stage.along_filter, ← hf, Stage.along_filter]
  · rw [← filter_opens, hc, filter_opens]
  · rw [← filter_hands, hc, filter_hands]
  · intro w hw ha hi
    obtain ⟨us, us', rfl⟩ := List.append_of_mem hw
    obtain ⟨hus, hy, -⟩ := h'.split
    have hrw : Registers w.calls := by
      simp only [Query.eventsOf_append, Query.eventsOf_cons, Registers.append] at hr'
      exact hr'.2.1
    obtain ⟨before, action, calls, step, after⟩ := w
    obtain rfl : action = .ready := ha
    exact Query.onlyArms_of_idle (hus.recorded (f := {}) ⟨rfl, rfl⟩)
      (hus.stands ⟨rfl, rfl⟩).2.registered hy hrw hi

/-- A query that has left UDP is told that its socket is ready, as the UDP socket was that it gave
up, while its connection does not stand yet. -/
theorem retries_harmless_stale : ∃ (request : Message) (params : QueryParams)
    (u v v' w : Query.Visit) (q q' : Query) (e e' : IoError),
    Query.Visits { id := 7, request, params } [u, v, w] q ∧
      Query.Visits { id := 7, request, params } [u, v, v', w] q' ∧
      Registers (Query.eventsOf [u, v, w]) ∧ Registers (Query.eventsOf [u, v, v', w]) ∧
      Retried (results (Query.eventsOf [u, v, w])) (results (Query.eventsOf [u, v, v', w])) ∧
      Query.verdicts [u, v, v', w] = [.error (.multiple [.udpSend e, .tcpConnect e'])] ∧
      Query.OnlyArms v' := by
  let server : SocketAddress := ⟨.localhost, 53⟩
  let bind : List Event := [⟨.bindUdp .ipv4, .ok 1⟩, ⟨.connectUdp 1 server, .ok ()⟩,
    ⟨.wake, ()⟩, ⟨.register ⟨.udp, 1⟩ 7 .writable, .ok ()⟩]
  let turn : List Event :=
    [⟨.sendUdp 1 Message.blank.octets, .error ⟨.connectionRefused, "refused"⟩⟩, ⟨.wake, ()⟩,
    ⟨.deregister ⟨.udp, 1⟩, .ok ()⟩, ⟨.close ⟨.udp, 1⟩, ()⟩, ⟨.connectTcp server, .ok 2⟩,
    ⟨.wake, ()⟩, ⟨.register ⟨.tcp, 2⟩ 7 .writable, .ok ()⟩]
  let stale : List Event := [⟨.takeError 2, .ok none⟩,
    ⟨.peerAddress 2, .error ⟨.notConnected, "not connected"⟩⟩, ⟨.wake, ()⟩,
    ⟨.reregister ⟨.tcp, 2⟩ 7 .writable, .ok ()⟩]
  let refused : List Event := [⟨.takeError 2, .ok (some ⟨.connectionRefused, "refused"⟩)⟩,
    ⟨.wake, ()⟩, ⟨.deregister ⟨.tcp, 2⟩, .ok ()⟩, ⟨.close ⟨.tcp, 2⟩, ()⟩]
  have hr : Registers (bind ++ (turn ++ (refused ++ []))) := by
    simp [Registers, bind, turn, refused, Event.arming?, Except.isOk, Except.toBool]
  have hr' : Registers (bind ++ (turn ++ (stale ++ (refused ++ [])))) := by
    simp [Registers, bind, turn, stale, refused, Event.arming?, Except.isOk, Except.toBool]
  have hx : Retried (results (bind ++ (turn ++ (refused ++ []))))
      (results (bind ++ (turn ++ (stale ++ (refused ++ []))))) :=
    .same _ (.same _ (.same _ (.same _ (.unconnected (.inl rfl) (.same _ .nil)))))
  have h : Query.Visits { id := 7, request := .blank, params := { server } } _ _ :=
    .cons (a := .start) (t := bind) (.call _ (.call _ (.call _ (.call _ (.pure _)))))
    <| .cons (a := .ready) (t := turn)
      (.call _ (.call _ (.call _ (.call _ (.call _ (.call _ (.call _ (.pure _))))))))
    <| .cons (a := .ready) (t := refused) (.call _ (.call _ (.call _ (.call _ (.pure _))))) (.nil _)
  have h' : Query.Visits { id := 7, request := .blank, params := { server } } _ _ :=
    .cons (a := .start) (t := bind) (.call _ (.call _ (.call _ (.call _ (.pure _)))))
    <| .cons (a := .ready) (t := turn)
      (.call _ (.call _ (.call _ (.call _ (.call _ (.call _ (.call _ (.pure _))))))))
    <| .cons (a := .ready) (t := stale) (.call _ (.call _ (.call _ (.call _ (.pure _)))))
    <| .cons (a := .ready) (t := refused) (.call _ (.call _ (.call _ (.call _ (.pure _))))) (.nil _)
  obtain ⟨hv, -, -, ho⟩ := retries_harmless h h' hr hr' hx
  refine ⟨_, _, _, _, _, _, _, _, _, _, h, h', hr, hr', hx, hv.trans rfl, ho _ (by simp) rfl ?_⟩
  simp [results, stale, Event.result?, SocketResult.isIdle]

end DnsClient
