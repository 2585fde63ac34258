import DnsClient.Stub
import DnsClient.Proofs.Engine.Views
import DnsClient.Proofs.Message.Request
import Mathlib.Data.List.Rotate

/-!
Which servers a resolver asks, and what it answers.

A resolver is run on a tape that has all random numbers and all results of queries in store, and
keeps a journal of what it took off it. Asking servers is a pass over a list of them, which goes on
until there is an answer (`Passes`); a call is a pass over all its rounds in a row. What the results
of a pass without an answer come to is told by its findings (`Gathers`).
-/

namespace DnsClient.Stub

/-- A query that a resolver had its engine run, and what came of it. -/
structure Exchange where
  request : Request
  params : QueryParams
  result : Except QueryError Message

/-- Random numbers and results of queries, in the order in which they are asked for. -/
structure Tape where
  number : Nat → UInt16
  result : Nat → Except QueryError Message

/-- The random numbers that were drawn, and the queries that were run. -/
structure Journal where
  drawn : List UInt16 := []
  exchanges : List Exchange := []

variable {conf : ResolvConf} {w : Tape} {s : Stub} {r : Request} {as bs : List SocketAddress}
  {f f' : Findings} {j : Journal} {e : Exchange} {es es' : List Exchange} {m : Message}
  {x : Except QueryError Message} {xs : List (Except QueryError Message)} {res : Message ⊕ Findings}

namespace Journal

def draw (j : Journal) (n : UInt16) : Journal := { j with drawn := j.drawn ++ [n] }

/-- The journal after queries whose IDs were all drawn for them. -/
def add (j : Journal) (es : List Exchange) : Journal :=
  ⟨j.drawn ++ es.map (·.request.id), j.exchanges ++ es⟩

lemma add_nil (j : Journal) : j.add [] = j := by simp [add]

lemma add_cons (j : Journal) (e : Exchange) (es : List Exchange) :
    j.add (e :: es) = (j.add [e]).add es := by simp [add]

lemma add_append (j : Journal) (es es' : List Exchange) :
    j.add (es ++ es') = (j.add es).add es' := by simp [add]

end Journal

namespace Tape

def means (w : Tape) : Means (StateM Journal) where
  draw j := (w.number j.drawn.length, j.draw (w.number j.drawn.length))
  ask r p j :=
    let x := w.result j.exchanges.length
    (.ofResult x, { j with exchanges := j.exchanges ++ [⟨r, p, x⟩] })

/-- A call of a resolver: what it returns, and the resolver and the journal after it. -/
def call (w : Tape) (s : Stub) (qname : Name) (qtype : Rtype) (j : Journal) :
    (Except QueryError Message × Stub) × Journal :=
  (query w.means s qname qtype).run j

/-- A new resolver after some calls, and its journal. -/
def after (w : Tape) (conf : ResolvConf) (qs : List (Name × Rtype)) : Stub × Journal :=
  qs.foldl (fun s q => ((w.call s.1 q.1 q.2 s.2).1.2, (w.call s.1 q.1 q.2 s.2).2)) (ofConf conf, {})

end Tape

/-- The journal holds the first numbers and the first results of the tape, in their order. -/
structure Journal.OfTape (j : Journal) (w : Tape) : Prop where
  drawn : j.drawn = (List.range j.drawn.length).map w.number
  results : j.exchanges.map (·.result) = (List.range j.exchanges.length).map w.result

namespace Journal.OfTape

lemma draw (h : j.OfTape w) : (j.draw (w.number j.drawn.length)).OfTape w where
  drawn := by
    rw [Journal.draw, List.length_append, List.length_singleton, List.range_succ, List.map_append,
      ← h.drawn, List.map_singleton]
  results := h.results

lemma add (h : j.OfTape w) (hid : e.request.id = w.number j.drawn.length)
    (hx : e.result = w.result j.exchanges.length) : (j.add [e]).OfTape w where
  drawn := by
    simp only [Journal.add, List.map_singleton, hid]
    exact h.draw.drawn
  results := by
    simp only [Journal.add, List.map_append, List.length_append, List.length_singleton,
      List.range_succ, List.map_singleton, ← h.results, hx]

end Journal.OfTape

/-! ### Passes -/

/-- These queries are run for a list of servers, one after the other until there is an answer. -/
inductive Passes (s : Stub) (r : Request) :
    List SocketAddress → Findings → List Exchange → Message ⊕ Findings → Prop where
  | done (f : Findings) : Passes s r [] f [] (.inr f)
  | answered {a : SocketAddress} {as : List SocketAddress} {f : Findings} {m : Message}
      (id : UInt16) (hm : ¬ isServerFailure m) :
      Passes s r (a :: as) f [⟨{ r with id }, s.config.queryParams a, .ok m⟩] (.inl m)
  | moves {a : SocketAddress} {as : List SocketAddress} {f f' : Findings}
      {x : Except QueryError Message} {es : List Exchange} {res : Message ⊕ Findings} (id : UInt16)
      (hx : f.add (.ofResult x) = .inr f') (h : Passes s r as f' es res) :
      Passes s r (a :: as) f (⟨{ r with id }, s.config.queryParams a, x⟩ :: es) res

lemma add_eq_inl (h : f.add (.ofResult x) = .inl m) : x = .ok m ∧ ¬ isServerFailure m := by
  cases x with
  | error y => cases h
  | ok m' =>
    have h : (if isServerFailure m' then .inr { f with failure := some m' } else .inl m') =
      (.inl m : Message ⊕ Findings) := h
    split at h
    · cases h
    · next hm =>
      cases h
      exact ⟨rfl, hm⟩

lemma askServers_cons {n : Type → Type} [Monad n] (means : Means n) (s : Stub) (r : Request)
    (a : SocketAddress) (as : List SocketAddress) (f : Findings) :
    askServers means s r (a :: as) f = means.draw >>= fun id =>
      means.ask { r with id } (s.config.queryParams a) >>= fun o =>
        (f.add o).elim (fun m => pure (.inl m)) (askServers means s r as) := by
  rw [askServers]
  congr 1
  funext id
  congr 1
  funext o
  cases f.add o <;> rfl

lemma run_askServers (w : Tape) (s : Stub) (r : Request) (as : List SocketAddress) (f : Findings)
    (hj : j.OfTape w) : ∃ es res, Passes s r as f es res ∧
      (askServers w.means s r as f).run j = (res, j.add es) ∧ (j.add es).OfTape w := by
  induction as generalizing f j with
  | nil =>
    refine ⟨[], .inr f, .done f, ?_⟩
    rw [Journal.add_nil]
    exact ⟨rfl, hj⟩
  | cons a as ih =>
    let id := w.number j.drawn.length
    let x := w.result j.exchanges.length
    let e : Exchange := ⟨{ r with id }, s.config.queryParams a, x⟩
    have hrun : (askServers w.means s r (a :: as) f).run j =
        ((f.add (.ofResult x)).elim (fun m => pure (.inl m)) (askServers w.means s r as)).run
          (j.add [e]) := by
      rw [askServers_cons]
      rfl
    have he : (j.add [e]).OfTape w := hj.add rfl rfl
    rw [hrun]
    cases hx : f.add (.ofResult x) with
    | inl m =>
      obtain ⟨hm, hf⟩ := add_eq_inl hx
      have hem : e = ⟨{ r with id }, s.config.queryParams a, .ok m⟩ := by rw [← hm]
      exact ⟨[e], .inl m, hem ▸ .answered id hf, rfl, he⟩
    | inr f' =>
      obtain ⟨es, res, h, hrun', hes⟩ := ih f' he
      rw [← j.add_cons] at hrun' hes
      exact ⟨e :: es, res, .moves id hx h, hrun', hes⟩

namespace Passes

/-- An answer ends a pass, whatever servers would follow. -/
lemma append_answered (h : Passes s r as f es (.inl m)) (bs : List SocketAddress) :
    Passes s r (as ++ bs) f es (.inl m) := by
  generalize hres : (Sum.inl m : Message ⊕ Findings) = res at h
  induction h with
  | done f => cases hres
  | answered id hm =>
    cases hres
    exact .answered id hm
  | moves id hx _ ih => exact .moves id hx (ih hres)

lemma append (h : Passes s r as f es (.inr f')) (h' : Passes s r bs f' es' res) :
    Passes s r (as ++ bs) f (es ++ es') res := by
  generalize hres : (Sum.inr f' : Message ⊕ Findings) = res' at h
  induction h with
  | done f =>
    cases hres
    exact h'
  | answered id hm => cases hres
  | moves id hx _ ih => exact .moves id hx (ih hres)

/-- Servers are asked in their order. -/
lemma servers (h : Passes s r as f es res) : es.map (·.params.server) <+: as := by
  induction h with
  | done f => exact List.prefix_rfl
  | answered id hm => exact ⟨_, rfl⟩
  | moves id hx _ ih => exact (List.prefix_cons_inj _).2 ih

/-- Requests differ in nothing but their IDs. -/
lemma exchange (h : Passes s r as f es res) (he : e ∈ es) :
    e.request = { r with id := e.request.id } ∧
      e.params = s.config.queryParams e.params.server := by
  induction h with
  | done f => cases he
  | answered id hm =>
    rw [List.mem_singleton.1 he]
    exact ⟨rfl, rfl⟩
  | moves id hx _ ih =>
    rcases List.mem_cons.1 he with rfl | he
    · exact ⟨rfl, rfl⟩
    · exact ih he

end Passes

/-! ### Calls -/

lemma askRounds_succ {n : Type → Type} [Monad n] (means : Means n) (s : Stub) (r : Request)
    (as : List SocketAddress) (k : Nat) (f : Findings) :
    askRounds means s r as (k + 1) f = askServers means s r as f >>= fun x =>
      x.elim (fun m => pure (.ok m)) (askRounds means s r as k) := by
  rw [askRounds]
  congr 1
  funext x
  cases x <;> rfl

lemma run_askRounds (w : Tape) (s : Stub) (r : Request) (as : List SocketAddress) (n : Nat)
    (f : Findings) (hj : j.OfTape w) :
    ∃ es res, Passes s r (List.replicate n as).flatten f es res ∧
      (askRounds w.means s r as n f).run j = (res.elim .ok Findings.result, j.add es) ∧
      (j.add es).OfTape w := by
  induction n generalizing f j with
  | zero =>
    refine ⟨[], .inr f, .done f, ?_⟩
    rw [Journal.add_nil]
    exact ⟨rfl, hj⟩
  | succ n ih =>
    obtain ⟨es, res, h, hround, hes⟩ := run_askServers w s r as f hj
    -- the next round goes on where the journal of this one ends
    have hrun : (askRounds w.means s r as (n + 1) f).run j =
        (((askServers w.means s r as f).run j).1.elim (fun m => pure (.ok m))
          (askRounds w.means s r as n)).run ((askServers w.means s r as f).run j).2 := by
      rw [askRounds_succ]
      rfl
    rw [hrun, hround, List.replicate_succ, List.flatten_cons]
    cases res with
    | inl m => exact ⟨es, .inl m, h.append_answered _, rfl, hes⟩
    | inr f' =>
      obtain ⟨es', res, h', hrun', hes'⟩ := ih f' hes
      rw [← j.add_append] at hrun' hes'
      exact ⟨es ++ es', res, h.append h', hrun', hes'⟩

/-- All servers that a call may ask, in order. -/
def rounds (s : Stub) : List SocketAddress := (List.replicate s.conf.attempts s.round).flatten

lemma run_call (s : Stub) (qname : Name) (qtype : Rtype) (hj : j.OfTape w) :
    ∃ id es res, Passes s (s.request qname qtype id) s.rounds {} es res ∧
      w.call s qname qtype j = ((res.elim .ok Findings.result, s.advance), (j.draw id).add es) ∧
      ((j.draw id).add es).OfTape w := by
  let id := w.number j.drawn.length
  obtain ⟨es, res, h, hrounds, hes⟩ :=
    run_askRounds w s (s.request qname qtype id) s.round s.conf.attempts {} hj.draw
  have hrun : w.call s qname qtype j =
      ((((askRounds w.means s (s.request qname qtype id) s.round s.conf.attempts {}).run
          (j.draw id)).1, s.advance),
        ((askRounds w.means s (s.request qname qtype id) s.round s.conf.attempts {}).run
          (j.draw id)).2) := rfl
  exact ⟨id, es, res, h, by rw [hrun, hrounds], hes⟩

lemma after_append (w : Tape) (conf : ResolvConf) (qs : List (Name × Rtype)) (q : Name × Rtype) :
    w.after conf (qs ++ [q]) =
      ((w.call (w.after conf qs).1 q.1 q.2 (w.after conf qs).2).1.2,
        (w.call (w.after conf qs).1 q.1 q.2 (w.after conf qs).2).2) := by
  rw [Tape.after, List.foldl_append]
  rfl

lemma after_ofTape (w : Tape) (conf : ResolvConf) (qs : List (Name × Rtype)) :
    (w.after conf qs).2.OfTape w := by
  induction qs using List.reverseRecOn with
  | nil => exact ⟨rfl, rfl⟩
  | append_singleton qs q ih =>
    obtain ⟨id, es, res, -, hc, hj⟩ := run_call (w.after conf qs).1 q.1 q.2 ih
    rw [after_append, hc]
    exact hj

/-- Calls leave nothing in a resolver but their number, and that only if it rotates. -/
lemma after_stub (w : Tape) (conf : ResolvConf) (qs : List (Name × Rtype)) :
    (w.after conf qs).1 =
      { ofConf conf with next := if conf.rotate then UInt64.ofNat qs.length else 0 } := by
  induction qs using List.reverseRecOn with
  | nil => cases hr : conf.rotate <;> simp [Tape.after, ofConf]
  | append_singleton qs q ih =>
    have ha : (w.after conf (qs ++ [q])).1 = (w.after conf qs).1.advance := by
      obtain ⟨id, es, res, -, hc, -⟩ :=
        run_call (w.after conf qs).1 q.1 q.2 (after_ofTape w conf qs)
      rw [after_append, hc]
    have hc : (ofConf conf).conf.rotate = conf.rotate := rfl
    rw [ha, ih, advance]
    cases hr : conf.rotate with
    | false => simp [hc, hr]
    | true => simp [hc, hr, UInt64.ofNat_add]

lemma after_conf (w : Tape) (conf : ResolvConf) (qs : List (Name × Rtype)) :
    (w.after conf qs).1.conf = conf.finalize := congrArg (·.conf) (after_stub w conf qs)

lemma after_config (w : Tape) (conf : ResolvConf) (qs : List (Name × Rtype)) :
    (w.after conf qs).1.config = (ofConf conf).config := congrArg (·.config) (after_stub w conf qs)

/-! ### Findings -/

/-- The server did not fail to answer. -/
def IsAnswer (x : Except QueryError Message) : Prop := ∃ m, x = .ok m ∧ ¬ isServerFailure m

def IsError (x : Except QueryError Message) : Prop := ∃ y, x = .error y

/-- These findings come of results without an answer. -/
inductive Gathers : List (Except QueryError Message) → Findings → Prop where
  | nil : Gathers [] {}
  | failure {xs : List (Except QueryError Message)} {f : Findings} {m : Message} (h : Gathers xs f)
      (hm : isServerFailure m) : Gathers (xs ++ [.ok m]) { f with failure := some m }
  | error {xs : List (Except QueryError Message)} {f : Findings} (h : Gathers xs f)
      (y : QueryError) : Gathers (xs ++ [.error y]) { f with lastError := some y }

/-- How a call ends that may run so many queries: with these results of the queries, it returns that
one. -/
inductive Concludes (limit : Nat) :
    List (Except QueryError Message) → Except QueryError Message → Prop where
  /-- The last result is the first answer. -/
  | answered {xs : List (Except QueryError Message)} {m : Message} (hl : xs.length < limit)
      (hx : ∀ x ∈ xs, ¬ IsAnswer x) (hm : ¬ isServerFailure m) :
      Concludes limit (xs ++ [.ok m]) (.ok m)
  /-- There is no answer, but the response of a server that failed. Only errors come after it. -/
  | refused {xs ys : List (Except QueryError Message)} {m : Message}
      (hl : (xs ++ .ok m :: ys).length = limit) (hx : ∀ x ∈ xs, ¬ IsAnswer x)
      (hm : isServerFailure m) (hy : ∀ y ∈ ys, IsError y) :
      Concludes limit (xs ++ .ok m :: ys) (.ok m)
  /-- There are errors only, and the last one is returned. -/
  | failed {xs : List (Except QueryError Message)} {y : QueryError}
      (hl : xs.length + 1 = limit) (hx : ∀ x ∈ xs, IsError x) :
      Concludes limit (xs ++ [.error y]) (.error y)

lemma Concludes.ne_nil {limit : Nat} {y : Except QueryError Message} (h : Concludes limit xs y) :
    xs ≠ [] := by
  cases h <;> simp

lemma not_isAnswer_error (y : QueryError) : ¬ IsAnswer (.error y) := nofun

lemma not_isAnswer_ok (hm : isServerFailure m) : ¬ IsAnswer (.ok m) := by
  rintro ⟨_, ⟨⟩, h⟩
  exact h hm

namespace Gathers

lemma add (h : Gathers xs f) (hx : f.add (.ofResult x) = .inr f') : Gathers (xs ++ [x]) f' := by
  cases x with
  | error y =>
    cases hx
    exact h.error y
  | ok m =>
    have hx : (if isServerFailure m then .inr { f with failure := some m } else .inl m) =
      (.inr f' : Message ⊕ Findings) := hx
    split at hx
    · next hm =>
      cases hx
      exact h.failure hm
    · cases hx

lemma not_isAnswer (h : Gathers xs f) : ∀ x ∈ xs, ¬ IsAnswer x := by
  induction h with
  | nil => nofun
  | failure _ hm ih =>
    exact List.forall_mem_append.2 ⟨ih, List.forall_mem_singleton.2 (not_isAnswer_ok hm)⟩
  | error _ y ih =>
    exact List.forall_mem_append.2 ⟨ih, List.forall_mem_singleton.2 (not_isAnswer_error y)⟩

lemma isError (h : Gathers xs f) (hf : f.failure = none) : ∀ x ∈ xs, IsError x := by
  induction h with
  | nil => nofun
  | failure => cases hf
  | error _ y ih => exact List.forall_mem_append.2 ⟨ih hf, List.forall_mem_singleton.2 ⟨y, rfl⟩⟩

lemma lastFailure (h : Gathers xs f) (hf : f.failure = some m) :
    ∃ us vs, xs = us ++ .ok m :: vs ∧ isServerFailure m ∧ ∀ y ∈ vs, IsError y := by
  induction h with
  | nil => cases hf
  | @failure xs _ _ _ hm _ =>
    cases hf
    exact ⟨xs, [], rfl, hm, nofun⟩
  | error _ y ih =>
    obtain ⟨us, vs, rfl, hm, hv⟩ := ih hf
    refine ⟨us, vs ++ [.error y], by simp, hm, ?_⟩
    exact List.forall_mem_append.2 ⟨hv, List.forall_mem_singleton.2 ⟨y, rfl⟩⟩

lemma concludes (h : Gathers xs f) (hn : xs ≠ []) : Concludes xs.length xs f.result := by
  cases hf : f.failure with
  | some m =>
    obtain ⟨us, vs, rfl, hm, hv⟩ := h.lastFailure hf
    rw [Findings.result, hf]
    exact .refused rfl (fun x hx => h.not_isAnswer x (List.mem_append_left _ hx)) hm hv
  | none =>
    -- no response was kept, so the last result is an error, like all before it
    cases h with
    | nil => exact absurd rfl hn
    | failure => cases hf
    | error h y =>
      rw [Findings.result, hf]
      exact .failed (by simp) (h.isError hf)

end Gathers

/-- Without an answer all servers are asked, and what the pass ends in tells their results. -/
lemma Passes.gathers (h : Passes s r as f es (.inr f')) (hg : Gathers xs f) :
    es.length = as.length ∧ Gathers (xs ++ es.map (·.result)) f' := by
  generalize hres : (Sum.inr f' : Message ⊕ Findings) = res at h
  induction h generalizing xs with
  | done f =>
    cases hres
    exact ⟨rfl, by simpa using hg⟩
  | answered => cases hres
  | moves id hx _ ih =>
    obtain ⟨hl, hg'⟩ := ih (hg.add hx) hres
    exact ⟨congrArg (· + 1) hl, by simpa using hg'⟩

/-- An answer comes last. -/
lemma Passes.answer (h : Passes s r as f es (.inl m)) (hg : Gathers xs f) :
    ∃ ys, xs ++ es.map (·.result) = ys ++ [.ok m] ∧ (∀ y ∈ ys, ¬ IsAnswer y) ∧
      ¬ isServerFailure m := by
  generalize hres : (Sum.inl m : Message ⊕ Findings) = res at h
  induction h generalizing xs with
  | done f => cases hres
  | answered id hm =>
    cases hres
    exact ⟨xs, rfl, hg.not_isAnswer, hm⟩
  | moves id hx _ ih =>
    obtain ⟨ys, hy, h⟩ := ih (hg.add hx) hres
    exact ⟨ys, by rw [← hy]; simp, h⟩

lemma Passes.concludes (h : Passes s r as {} es res) (hn : as ≠ []) :
    Concludes as.length (es.map (·.result)) (res.elim .ok Findings.result) := by
  cases res with
  | inl m =>
    obtain ⟨ys, hy, hx, hm⟩ := h.answer .nil
    have hle : es.length ≤ as.length := by simpa using h.servers.length_le
    have hlen : es.length = ys.length + 1 := by simpa using congrArg List.length hy
    rw [List.nil_append] at hy
    rw [hy]
    exact .answered (by omega) hx hm
  | inr f =>
    obtain ⟨hlen, hg⟩ := h.gathers .nil
    rw [List.nil_append] at hg
    have hpos : 0 < (es.map (·.result)).length := by
      rw [List.length_map, hlen]
      exact List.length_pos_iff.2 hn
    have hcon := hg.concludes (List.length_pos_iff.1 hpos)
    rwa [List.length_map, hlen] at hcon

/-! ### Rounds -/

lemma getElem?_flatten_replicate {α : Type} {as : List α} {n t i : Nat} {a : α} (hi : i < as.length)
    (h : (List.replicate n as).flatten[t * as.length + i]? = some a) : as[i]? = some a := by
  induction n generalizing t with
  | zero => cases h
  | succ n ih =>
    rw [List.replicate_succ, List.flatten_cons] at h
    cases t with
    | zero =>
      rw [Nat.zero_mul, Nat.zero_add, List.getElem?_append_left hi] at h
      exact h
    | succ t =>
      have ht : (t + 1) * as.length + i = as.length + (t * as.length + i) := by
        rw [Nat.succ_mul]
        omega
      rw [ht, List.getElem?_append_right (Nat.le_add_right ..), Nat.add_sub_cancel_left] at h
      exact ih h

lemma round_eq (s : Stub) :
    s.round = s.conf.servers.rotate (if s.conf.rotate then s.next.toNat else 0) := by
  rw [List.rotate_eq_drop_append_take_mod, round]
  cases s.conf.rotate <;> simp

@[simp] lemma length_round (s : Stub) : s.round.length = s.conf.servers.length := by
  rw [round_eq, List.length_rotate]

@[simp] lemma length_rounds (s : Stub) :
    s.rounds.length = s.conf.servers.length * s.conf.attempts := by
  simp [rounds, Nat.mul_comm]

lemma servers_finalize_pos (conf : ResolvConf) : 0 < conf.finalize.servers.length := by
  rw [List.length_pos_iff]
  by_cases h : conf.servers = [] <;> simp [ResolvConf.finalize, h]

lemma attempts_finalize_pos (conf : ResolvConf) : 0 < conf.finalize.attempts := by
  simp only [ResolvConf.finalize]
  split_ifs <;> omega

/-- The place of the server that a call starts with after so many others. Their number is kept in 64
bits. -/
def start (conf : ResolvConf) (calls : Nat) : Nat :=
  if conf.rotate then calls % UInt64.size % conf.finalize.servers.length else 0

/-- In every round a call comes to the servers in turn, from its first one on. -/
lemma getElem?_rounds {w : Tape} {qs : List (Name × Rtype)} {t i : Nat} {a : SocketAddress}
    (hi : i < conf.finalize.servers.length)
    (h : (w.after conf qs).1.rounds[t * conf.finalize.servers.length + i]? = some a) :
    conf.finalize.servers[(start conf qs.length + i) % conf.finalize.servers.length]? = some a := by
  let s : Stub := (w.after conf qs).1
  have hn : s.next = if conf.rotate then UInt64.ofNat qs.length else 0 :=
    congrArg (·.next) (after_stub w conf qs)
  have hl : s.round.length = conf.finalize.servers.length := by rw [length_round, after_conf]
  have hs : s.round = conf.finalize.servers.rotate (if conf.rotate then s.next.toNat else 0) := by
    rw [round_eq, after_conf]
    rfl
  have hr : s.round[i]? = some a := by
    rw [← hl] at h hi
    exact getElem?_flatten_replicate hi h
  rw [hs, List.getElem?_rotate hi, hn] at hr
  rw [← hr, start]
  cases conf.rotate with
  | false => simp
  | true => simp [UInt64.toNat_ofNat', UInt64.size, Nat.add_comm i]

/-- What a call of a new resolver comes to after so many others: the queries that it has run, and
what it returns. -/
structure Selects (conf : ResolvConf) (calls : Nat) (q : Question) (es : List Exchange)
    (res : Except QueryError Message) : Prop where
  pos : 0 < conf.finalize.servers.length
  ne_nil : es ≠ []
  /-- Every round goes through the servers from the same one on. -/
  server : ∀ t i e, i < conf.finalize.servers.length →
    es[t * conf.finalize.servers.length + i]? = some e →
    conf.finalize.servers[(start conf calls + i) % conf.finalize.servers.length]? =
      some e.params.server
  params : ∀ e ∈ es, e.params = (ofConf conf).config.queryParams e.params.server
  /-- The requests are messages that ask the question, each with its own ID. -/
  request : ∀ e ∈ es, ∃ m, e.request.compose = .ok m ∧
    Request.Asks q e.request.id conf.recurse false
      (if conf.useEdns0 then some e.params.payloadSize else none) m
  concludes : Concludes (conf.finalize.servers.length * conf.finalize.attempts)
    (es.map (·.result)) res

/-- A request of a call composes to a message that asks the question. -/
lemma Passes.asks {qs : List (Name × Rtype)} {qname : Name} {qtype : Rtype} {id : UInt16}
    (h : Passes (w.after conf qs).1 ((w.after conf qs).1.request qname qtype id) as f es res)
    (he : e ∈ es) : ∃ m, e.request.compose = .ok m ∧
      Request.Asks { qname, qtype } e.request.id conf.recurse false
        (if conf.useEdns0 then some e.params.payloadSize else none) m := by
  obtain ⟨hr, hp⟩ := h.exchange he
  have hc : (w.after conf qs).1.conf = conf.finalize := after_conf w conf qs
  have hq : e.request.question = { qname, qtype } := congrArg (·.question) hr
  have hrd : e.request.recursionDesired = conf.recurse :=
    (congrArg (·.recursionDesired) hr).trans (congrArg (·.recurse) hc)
  have hcd : e.request.checkingDisabled = false := congrArg (·.checkingDisabled) hr
  have hsize : e.request.payloadSize =
      if conf.useEdns0 then some e.params.payloadSize else none := by
    rw [congrArg (·.payloadSize) hr, congrArg (·.payloadSize) hp]
    change (if (w.after conf qs).1.conf.useEdns0 then _ else _) = _
    rw [hc]
    rfl
  obtain ⟨b, hb, hcomp, hh⟩ := e.request.exists_compose
  have hback := hcomp.readsBack
  rw [hh] at hback
  have ha := Request.asks_of_readsBack hback
  rw [hq, hrd, hcd, hsize] at ha
  exact ⟨_, hb, ha⟩

lemma Passes.selects {qs : List (Name × Rtype)} {qname : Name} {qtype : Rtype} {id : UInt16}
    (h : Passes (w.after conf qs).1 ((w.after conf qs).1.request qname qtype id)
      (w.after conf qs).1.rounds {} es res) :
    Selects conf qs.length { qname, qtype } es (res.elim .ok Findings.result) := by
  have hl : (w.after conf qs).1.rounds.length =
      conf.finalize.servers.length * conf.finalize.attempts := by
    rw [length_rounds, after_conf]
  have hp : 0 < (w.after conf qs).1.rounds.length := by
    rw [hl]
    exact Nat.mul_pos (servers_finalize_pos conf) (attempts_finalize_pos conf)
  have hcon := h.concludes (List.length_pos_iff.1 hp)
  rw [hl] at hcon
  refine ⟨servers_finalize_pos conf, fun hn => hcon.ne_nil (List.map_eq_nil_iff.2 hn), ?_, ?_,
    fun e he => h.asks he, hcon⟩
  · intro t i e hi he
    refine getElem?_rounds (w := w) (t := t) hi ?_
    obtain ⟨as, has⟩ := h.servers
    obtain ⟨hlt, -⟩ := List.getElem?_eq_some_iff.1 he
    rw [← has, List.getElem?_append_left (by simpa using hlt), List.getElem?_map, he]
    rfl
  · intro e he
    rw [← after_config w conf qs]
    exact (h.exchange he).2

/-- **Selection of servers**: whatever the configuration of a resolver, the calls before and the
results of queries, a call asks the servers in rounds, each time with an ID that is drawn for it. It
stops at the first answer, and without one returns what comes closest. Numbers and results come off
the tape one by one. -/
theorem query_selects (conf : ResolvConf) (w : Tape) (qs : List (Name × Rtype)) (qname : Name)
    (qtype : Rtype) : ∃ id es res,
      w.call (w.after conf qs).1 qname qtype (w.after conf qs).2 =
        ((res, (w.after conf (qs ++ [(qname, qtype)])).1), ((w.after conf qs).2.draw id).add es) ∧
      (((w.after conf qs).2.draw id).add es).OfTape w ∧
      Selects conf qs.length { qname, qtype } es res := by
  obtain ⟨id, es, res, h, hc, hj⟩ :=
    run_call (w.after conf qs).1 qname qtype (after_ofTape w conf qs)
  have ha : (w.after conf (qs ++ [(qname, qtype)])).1 = (w.after conf qs).1.advance := by
    rw [after_append, hc]
  exact ⟨id, es, res.elim .ok Findings.result, by rw [hc, ha], hj, h.selects⟩

end DnsClient.Stub
