import CallGraph.Source.Pool
import Mathlib.Data.List.Nodup

/-!
Where the requests to a pool are.

A request is known by the channel that was made for its answer. It is in the queue, or at a worker,
or its answer is in the channel, or the answer has been received, and it goes from one of these places
to the next. The record of what was done says how often it has gone on, and so a `Ledger` can be kept:
what has come to a place and has not gone on is there. As every channel is made once, no place has a
request twice, and a request that a client waits for has not got lost.

What is proved:
1. `Move`, `move_of_step`: what can be done while the ledger is right. In particular, no request is
   refused, no answer is unheard, and no client waits in vain.
2. `Ledger.step` and `Staffed.step`: the ledger stays right, and so does who holds the lock.
3. `exists_step`: while a client has not left, something can be done.
-/

namespace CallGraph.Source.Pool

/-! ## Counting in lists -/

/-- A list in which one item is replaced has what the new item has and not what the old one had. -/
theorem count_filterMap_set {β : Type} {f : β → Option Nat} {l : List β} {i : Nat} {a : β}
    (h : l[i]? = some a) (b : β) (c : Nat) :
    ((l.set i b).filterMap f).count c + (f a).toList.count c =
      (l.filterMap f).count c + (f b).toList.count c := by
  induction l generalizing i with
  | nil => simp at h
  | cons x xs ih =>
    cases i with
    | zero =>
      obtain rfl : x = a := by simpa using h
      cases hx : f x <;> cases hb : f b <;> simp [hx, hb, List.count_cons]
      omega
    | succ i =>
      have hrest := ih (i := i) (by simpa using h)
      cases hx : f x <;> simp [hx, List.count_cons] <;> omega

variable {e : Engine} {α : Type} {p q : Pool e α} {h ds : List Deed} {a : Action} {c : Nat}

/-! ## The places of requests, by their channels -/

/-- The channels that requests were sent with. -/
def Deed.asked? : Deed → Option Nat
  | .asked _ channel _ => some channel
  | _ => none

def Deed.took? : Deed → Option Nat
  | .took _ channel => some channel
  | _ => none

def Deed.answered? : Deed → Option Nat
  | .answered _ channel _ => some channel
  | _ => none

def Deed.got? : Deed → Option Nat
  | .got _ channel _ => some channel
  | _ => none

/-- Whether a request or an answer went nowhere. -/
def Deed.isFailure : Deed → Bool
  | .refused _ | .unheard _ _ | .deserted _ _ => true
  | _ => false

/-- The channels of the requests in the queue. -/
def queued (p : Pool e α) : List Nat := p.queue.map Job.channel

def working (p : Pool e α) : List Nat := p.workers.filterMap fun w => w.stage.channel?

/-- The channels that clients wait at. -/
def awaited (p : Pool e α) : List Nat := p.clients.filterMap Client.channel?

/-- How many answers are in a channel. -/
def pending (p : Pool e α) (c : Nat) : Nat := ((p.channels[c]?).map List.length).getD 0

/-- For each place, what has come there has gone on or is there. Requests come in the order of their
channels and are taken in this order. -/
structure Ledger (p : Pool e α) (h : List Deed) : Prop where
  issued : h.filterMap Deed.asked? = List.range p.channels.length
  queue : h.filterMap Deed.took? ++ p.queued = h.filterMap Deed.asked?
  workers : ∀ c, p.working.count c + (h.filterMap Deed.answered?).count c =
    (h.filterMap Deed.took?).count c
  channels : ∀ c, p.pending c + (h.filterMap Deed.got?).count c =
    (h.filterMap Deed.answered?).count c
  clients : ∀ c, p.awaited.count c + (h.filterMap Deed.got?).count c =
    (h.filterMap Deed.asked?).count c

/-- The worker waits for a request. -/
def Listens (p : Pool e α) (w : Nat) : Prop :=
  ∃ parser, p.workers[w]? = some ⟨parser, .listening⟩

/-- There are workers, the one that listens has the lock, and none stops before all clients have
left. -/
structure Staffed (size : Nat) (p : Pool e α) : Prop where
  count : p.workers.length = size
  present : 0 < size
  lock : ∀ w, p.lock = some w ↔ p.Listens w
  stopped : ∀ w ∈ p.workers, w.stage.isStopped = true → ∀ c ∈ p.clients, c.hasLeft = true

namespace Ledger

theorem nodup_asked (hl : Ledger p h) : (h.filterMap Deed.asked?).Nodup := by
  rw [hl.issued]
  exact List.nodup_range

/-- Each request is in one place, if it has been made. -/
theorem balance (hl : Ledger p h) (c : Nat) :
    p.queued.count c + p.working.count c + p.pending c + (h.filterMap Deed.got?).count c =
      (h.filterMap Deed.asked?).count c := by
  have hqueue := congrArg (List.count c) hl.queue
  rw [List.count_append] at hqueue
  have hworkers := hl.workers c
  have hchannels := hl.channels c
  omega

theorem count_asked_le (hl : Ledger p h) (c : Nat) : (h.filterMap Deed.asked?).count c ≤ 1 :=
  List.nodup_iff_count_le_one.mp hl.nodup_asked c

/-- No request goes through a place twice, as it is made once. -/
theorem nodup (hl : Ledger p h) : (h.filterMap Deed.took?).Nodup ∧
    (h.filterMap Deed.answered?).Nodup ∧ (h.filterMap Deed.got?).Nodup := by
  have htook : ∀ c, (h.filterMap Deed.took?).count c ≤ 1 := by
    intro c
    have hqueue := congrArg (List.count c) hl.queue
    have hone := hl.count_asked_le c
    rw [List.count_append] at hqueue
    omega
  simp only [List.nodup_iff_count_le_one]
  refine ⟨htook, ?_, ?_⟩
  · intro c
    have := htook c
    have := hl.workers c
    omega
  · intro c
    have := hl.count_asked_le c
    have := hl.clients c
    omega

/-- Someone waits for every request that is still on its way. -/
theorem hasReceiver_of_working (hl : Ledger p h) (hw : c ∈ p.working) : p.hasReceiver c = true := by
  have hone := List.count_pos_iff.mpr hw
  have hbalance := hl.balance c
  have hasked := hl.count_asked_le c
  have hclients := hl.clients c
  have hmem : c ∈ p.awaited := List.count_pos_iff.mp (by omega)
  obtain ⟨client, hclient, hc⟩ := List.mem_filterMap.mp hmem
  exact List.any_eq_true.mpr ⟨client, hclient, by simp [hc]⟩

/-- A request that someone waits for is in the queue, or at a worker, or answered. -/
theorem on_its_way (hl : Ledger p h) (hc : c ∈ p.awaited) :
    c ∈ p.queued ∨ c ∈ p.working ∨ 0 < p.pending c := by
  have hone := List.count_pos_iff.mpr hc
  have hbalance := hl.balance c
  have hasked := hl.count_asked_le c
  have hclients := hl.clients c
  by_cases hq : c ∈ p.queued
  · exact Or.inl hq
  by_cases hw : c ∈ p.working
  · exact Or.inr (Or.inl hw)
  · rw [List.count_eq_zero_of_not_mem hq, List.count_eq_zero_of_not_mem hw] at hbalance
    exact Or.inr (Or.inr (by omega))

end Ledger

theorem hasSender_iff : p.hasSender c = true ↔ c ∈ p.queued ∨ c ∈ p.working := by
  simp [hasSender, queued, working]

theorem mem_awaited {i : Nat} {r : ParseRequest} {next : Answer → Script α}
    (hclient : p.clients[i]? = some (.waiting c r next)) : c ∈ p.awaited :=
  List.mem_filterMap.mpr ⟨_, List.mem_of_getElem? hclient, rfl⟩

theorem mem_working {w : Nat} {worker : Worker e} (hworker : p.workers[w]? = some worker)
    (hc : worker.stage.channel? = some c) : c ∈ p.working :=
  List.mem_filterMap.mpr ⟨_, List.mem_of_getElem? hworker, hc⟩

/-! ## What can be done -/

/-- Every step of a pool whose ledger is right, with what it needs and what it changes. -/
inductive Move (p : Pool e α) : Action → Pool e α → List Deed → Prop where
  | asked {i : Nat} {r : ParseRequest} {next : Answer → Script α}
    (hclient : p.clients[i]? = some (.running (.ask r next))) :
    Move p (.call i)
      { p.setClient i (.waiting p.channels.length r next) with
        queue := p.queue ++ [⟨r, p.channels.length⟩]
        channels := p.channels ++ [[]] }
      [.asked i p.channels.length r]
  | got {i c : Nat} {r : ParseRequest} {next : Answer → Script α} {answer : Answer}
    {rest : List Answer} (hclient : p.clients[i]? = some (.waiting c r next))
    (hchannel : p.channels[c]? = some (answer :: rest)) :
    Move p (.receive i)
      { p.setClient i (.running (next answer)) with channels := p.channels.set c rest }
      [.got i c answer]
  | left {i : Nat} {result : α} (hclient : p.clients[i]? = some (.running (.done result))) :
    Move p (.leave i) (p.setClient i (.left result)) []
  | acquired {w : Nat} {parser : e.Parser} (hlock : p.lock = none)
    (hworker : p.workers[w]? = some ⟨parser, .idle⟩) :
    Move p (.acquire w) { p.setWorker w parser .listening with lock := some w } []
  | took {w : Nat} {parser : e.Parser} {job : Job} {rest : List Job}
    (hworker : p.workers[w]? = some ⟨parser, .listening⟩) (hqueue : p.queue = job :: rest) :
    Move p (.take w) { p.setWorker w parser (.parsing job) with queue := rest, lock := none }
      [.took w job.channel]
  | parsed {w : Nat} {parser : e.Parser} {job : Job}
    (hworker : p.workers[w]? = some ⟨parser, .parsing job⟩) :
    Move p (.parse w)
      (p.setWorker w (e.parseOne parser job.request).2
        (.sending job.channel (e.parseOne parser job.request).1)) []
  | answered {w c : Nat} {parser : e.Parser} {answer : Answer} {messages : List Answer}
    (hworker : p.workers[w]? = some ⟨parser, .sending c answer⟩)
    (hchannel : p.channels[c]? = some messages) :
    Move p (.send w)
      { p.setWorker w parser .idle with channels := p.channels.set c (messages ++ [answer]) }
      [.answered w c answer]
  | hungUp {w : Nat} {parser : e.Parser}
    (hworker : p.workers[w]? = some ⟨parser, .listening⟩)
    (hclients : ∀ c ∈ p.clients, c.hasLeft = true) :
    Move p (.hangUp w) { p.setWorker w parser .stopped with lock := none } []

/-- While clients are there, so are workers. -/
theorem Staffed.not_all_stopped {size : Nat} (hs : Staffed size p) {client : Client α}
    (hclient : client ∈ p.clients) (hleft : client.hasLeft = false) :
    p.workers.all (fun w => w.stage.isStopped) = false := by
  obtain ⟨w, ws, hw⟩ : ∃ w ws, p.workers = w :: ws :=
    List.exists_cons_of_length_pos (hs.count ▸ hs.present)
  have hmem : w ∈ p.workers := by rw [hw]; exact List.mem_cons_self
  cases hstage : w.stage.isStopped with
  | false => simp [hw, hstage]
  | true =>
    have := hs.stopped w hmem hstage client hclient
    rw [hleft] at this
    cases this

theorem move_of_step {size : Nat} (hl : Ledger p h) (hs : Staffed size p)
    (hstep : p.step a = some (q, ds)) : Move p a q ds := by
  cases a with
  | call i =>
    simp only [step, call] at hstep
    split at hstep
    · next r next hclient =>
      rw [hs.not_all_stopped (List.mem_of_getElem? hclient) rfl] at hstep
      cases hstep
      exact .asked hclient
    · cases hstep
  | receive i =>
    simp only [step, receive] at hstep
    split at hstep
    · next c r next hclient =>
      split at hstep
      · next hchannel =>
        cases hstep
        exact .got hclient hchannel
      · cases hstep
    · cases hstep
  | giveUp i =>
    simp only [step, giveUp] at hstep
    split at hstep
    · next c r next hclient =>
      split at hstep
      · next hchannel =>
        split at hstep
        · cases hstep
        · -- the channel is empty, so the request is in the queue or at a worker
          next hsender =>
          rw [hasSender_iff] at hsender
          have hempty : p.pending c = 0 := by simp [pending, hchannel]
          rcases hl.on_its_way (mem_awaited hclient) with hq | hw | hpos
          · exact absurd (Or.inl hq) hsender
          · exact absurd (Or.inr hw) hsender
          · omega
      · cases hstep
    · cases hstep
  | leave i =>
    simp only [step, leave] at hstep
    split at hstep
    · next hclient =>
      cases hstep
      exact .left hclient
    · cases hstep
  | acquire w =>
    simp only [step, acquire] at hstep
    split at hstep
    · next hlock hworker =>
      cases hstep
      exact .acquired hlock hworker
    · cases hstep
  | take w =>
    simp only [step, take] at hstep
    split at hstep
    · next hworker hqueue =>
      cases hstep
      exact .took hworker hqueue
    · cases hstep
  | parse w =>
    simp only [step, parse] at hstep
    split at hstep
    · next hworker =>
      cases hstep
      exact .parsed hworker
    · cases hstep
  | send w =>
    simp only [step, send] at hstep
    split at hstep
    · next hworker =>
      split at hstep
      · next hchannel =>
        rw [if_pos (hl.hasReceiver_of_working (mem_working hworker rfl))] at hstep
        cases hstep
        exact .answered hworker hchannel
      · cases hstep
    · cases hstep
  | hangUp w =>
    simp only [step, hangUp] at hstep
    split at hstep
    · next hworker =>
      split at hstep
      · next hend =>
        rw [Bool.and_eq_true, List.all_eq_true] at hend
        cases hstep
        exact .hungUp hworker hend.2
      · cases hstep
    · cases hstep

theorem Move.not_isFailure (hm : Move p a q ds) : ∀ d ∈ ds, d.isFailure = false := by
  cases hm <;> simp [Deed.isFailure]

/-! ## The ledger stays right -/

theorem count_working_set {w : Nat} {worker : Worker e} (hworker : p.workers[w]? = some worker)
    (parser : e.Parser) (stage : Stage) (c : Nat) :
    (p.setWorker w parser stage).working.count c + worker.stage.channel?.toList.count c =
      p.working.count c + stage.channel?.toList.count c :=
  count_filterMap_set hworker ⟨parser, stage⟩ c

theorem count_awaited_set {i : Nat} {client : Client α} (hclient : p.clients[i]? = some client)
    (next : Client α) (c : Nat) :
    (p.setClient i next).awaited.count c + client.channel?.toList.count c =
      p.awaited.count c + next.channel?.toList.count c :=
  count_filterMap_set hclient next c

theorem pending_set {messages : List Answer} {k : Nat} (hk : p.channels[k]? = some messages)
    (ms : List Answer) (c : Nat) :
    (((p.channels.set k ms)[c]?).map List.length).getD 0 =
      if c = k then ms.length else p.pending c := by
  have hlt := (List.getElem?_eq_some_iff.mp hk).1
  rw [List.getElem?_set]
  split
  · next heq => simp [heq]
  · next hne => rw [if_neg (Ne.symm hne)]; rfl

theorem pending_of_some {messages : List Answer} (hc : p.channels[c]? = some messages) :
    p.pending c = messages.length := by
  simp [pending, hc]

theorem Move.issued (hm : Move p a q ds) :
    List.range q.channels.length = List.range p.channels.length ++ ds.filterMap Deed.asked? := by
  cases hm <;> simp [setClient, setWorker, Deed.asked?, List.range_succ]

theorem Move.queued (hm : Move p a q ds) :
    p.queued ++ ds.filterMap Deed.asked? = ds.filterMap Deed.took? ++ q.queued := by
  cases hm with
  | took hworker hqueue =>
    simp [Pool.queued, hqueue, List.filterMap_cons, Deed.asked?, Deed.took?]
  | _ =>
    simp [Pool.queued, setClient, setWorker, List.filterMap_cons, Deed.asked?, Deed.took?]

theorem Move.working (hm : Move p a q ds) (c : Nat) :
    q.working.count c + (ds.filterMap Deed.answered?).count c =
      p.working.count c + (ds.filterMap Deed.took?).count c := by
  cases hm with
  | asked hclient => rfl
  | got hclient hchannel => rfl
  | left hclient => rfl
  | acquired hlock hworker => exact count_working_set hworker _ .listening c
  | took hworker hqueue => exact count_working_set hworker _ (.parsing _) c
  | parsed hworker =>
    -- the request stays at its worker
    exact Nat.add_right_cancel (count_working_set hworker _ (.sending _ _) c)
  | answered hworker hchannel => exact count_working_set hworker _ .idle c
  | hungUp hworker hclients => exact count_working_set hworker _ .stopped c

theorem Move.pending (hm : Move p a q ds) (c : Nat) :
    q.pending c + (ds.filterMap Deed.got?).count c =
      p.pending c + (ds.filterMap Deed.answered?).count c := by
  cases hm with
  | asked hclient =>
    -- a new channel is empty
    show (((p.channels ++ [[]])[c]?).map List.length).getD 0 = p.pending c
    rw [List.getElem?_append, Pool.pending]
    split
    · rfl
    · next hge =>
      rw [List.getElem?_eq_none (Nat.le_of_not_lt hge)]
      cases hc : [([] : List Answer)][c - p.channels.length]? with
      | none => rfl
      | some ms =>
        obtain rfl := List.mem_singleton.mp (List.mem_of_getElem? hc)
        rfl
  | @got i k r next answer rest hclient hchannel =>
    show ((((p.channels.set k rest)[c]?).map List.length).getD 0) + [k].count c = p.pending c
    rw [pending_set hchannel, List.count_singleton]
    by_cases hck : c = k
    · subst hck
      simp [pending_of_some hchannel]
    · simp [hck, Ne.symm hck]
  | left hclient => rfl
  | acquired hlock hworker => rfl
  | took hworker hqueue => rfl
  | parsed hworker => rfl
  | @answered w k parser answer messages hworker hchannel =>
    show (((p.channels.set k (messages ++ [answer]))[c]?).map List.length).getD 0 =
      p.pending c + [k].count c
    rw [pending_set hchannel, List.count_singleton]
    by_cases hck : c = k
    · subst hck
      simp [pending_of_some hchannel]
    · simp [hck, Ne.symm hck]
  | hungUp hworker hclients => rfl

theorem Move.awaited (hm : Move p a q ds) (c : Nat) :
    q.awaited.count c + (ds.filterMap Deed.got?).count c =
      p.awaited.count c + (ds.filterMap Deed.asked?).count c := by
  cases hm with
  | asked hclient => exact count_awaited_set hclient (.waiting _ _ _) c
  | got hclient hchannel => exact count_awaited_set hclient (.running _) c
  | left hclient => exact count_awaited_set hclient (.left _) c
  | acquired hlock hworker => rfl
  | took hworker hqueue => rfl
  | parsed hworker => rfl
  | answered hworker hchannel => rfl
  | hungUp hworker hclients => rfl

/-- What comes and goes in one step keeps the ledger right. -/
theorem Ledger.step (hl : Ledger p h) (hm : Move p a q ds) : Ledger q (h ++ ds) where
  issued := by rw [hm.issued, List.filterMap_append, hl.issued]
  queue := by
    rw [List.filterMap_append, List.filterMap_append, List.append_assoc, ← hm.queued,
      ← List.append_assoc, hl.queue]
  workers := by
    intro c
    have hbefore := hl.workers c
    have hnow := hm.working c
    simp only [List.filterMap_append, List.count_append]
    omega
  channels := by
    intro c
    have hbefore := hl.channels c
    have hnow := hm.pending c
    simp only [List.filterMap_append, List.count_append]
    omega
  clients := by
    intro c
    have hbefore := hl.clients c
    have hnow := hm.awaited c
    simp only [List.filterMap_append, List.count_append]
    omega

theorem ledger_start (e : Engine) (workers : Nat) (scripts : List (Script α)) :
    Ledger (start e workers scripts) [] where
  issued := rfl
  queue := rfl
  workers := by
    intro c
    have hnone : (start e workers scripts).working = [] := by
      simp [working, start, Stage.channel?]
    rw [hnone]
    rfl
  channels := fun _ => rfl
  clients := by
    intro c
    have hnone : (start e workers scripts).awaited = [] := by
      simp [awaited, start, Client.channel?]
    rw [hnone]
    rfl

/-! ## The workers stay in order -/

theorem staffed_start (e : Engine) (workers : Nat) (scripts : List (Script α)) :
    Staffed (max workers 1) (start e workers scripts) where
  count := List.length_replicate
  present := by omega
  lock := by
    intro w
    refine iff_of_false (by simp [start]) ?_
    rintro ⟨parser, hw⟩
    have := List.eq_of_mem_replicate (List.mem_of_getElem? hw)
    cases this
  stopped := by
    intro w hw hstop
    rw [List.eq_of_mem_replicate hw] at hstop
    cases hstop

theorem listens_set {w : Nat} {worker : Worker e} (hworker : p.workers[w]? = some worker)
    (parser : e.Parser) (stage : Stage) (v : Nat) :
    (p.setWorker w parser stage).Listens v ↔
      v = w ∧ stage = .listening ∨ v ≠ w ∧ p.Listens v := by
  have hlt := (List.getElem?_eq_some_iff.mp hworker).1
  unfold Listens
  show (∃ parser', (p.workers.set w ⟨parser, stage⟩)[v]? = _) ↔ _
  rw [List.getElem?_set]
  by_cases hv : v = w
  · subst hv
    simp [hlt]
  · simp [hv, Ne.symm hv]

/-- A worker that does not listen before and after has no part in the lock. -/
theorem Staffed.lock_set {size w : Nat} {worker : Worker e} (hs : Staffed size p)
    (hworker : p.workers[w]? = some worker) (hold : worker.stage ≠ .listening)
    (parser : e.Parser) {stage : Stage} (hnew : stage ≠ .listening) (v : Nat) :
    p.lock = some v ↔ (p.setWorker w parser stage).Listens v := by
  have hnot : ¬ p.Listens w := by
    rintro ⟨parser', hw⟩
    rw [hworker] at hw
    exact hold (congrArg Worker.stage (Option.some.inj hw))
  rw [hs.lock, listens_set hworker]
  by_cases hv : v = w
  · subst hv
    simp [hnot, hnew]
  · simp [hv]

/-- When the worker that listens goes on, none listens. -/
theorem Staffed.unlock_set {size w : Nat} {parser : e.Parser} (hs : Staffed size p)
    (hworker : p.workers[w]? = some ⟨parser, .listening⟩) (parser' : e.Parser) {stage : Stage}
    (hnew : stage ≠ .listening) (v : Nat) :
    none = some v ↔ (p.setWorker w parser' stage).Listens v := by
  have hlock : p.lock = some w := (hs.lock w).mpr ⟨parser, hworker⟩
  rw [listens_set hworker, ← hs.lock, hlock]
  simp only [reduceCtorEq, hnew, and_false, false_or, Option.some.injEq, false_iff, not_and]
  exact fun hne heq => hne heq.symm

theorem Staffed.stopped_set {size w : Nat} (hs : Staffed size p) (parser : e.Parser)
    {stage : Stage} (hnew : stage.isStopped = false) :
    ∀ worker ∈ (p.setWorker w parser stage).workers, worker.stage.isStopped = true →
      ∀ c ∈ p.clients, c.hasLeft = true := by
  intro worker hmem hstop
  rcases List.mem_or_eq_of_mem_set hmem with hmem | rfl
  · exact hs.stopped worker hmem hstop
  · rw [hnew] at hstop
    cases hstop

theorem Staffed.of_client {size i : Nat} {client : Client α} (hs : Staffed size p)
    (hclient : p.clients[i]? = some client) (hleft : client.hasLeft = false)
    (hworkers : q.workers = p.workers) (hlock : q.lock = p.lock) : Staffed size q where
  count := hworkers ▸ hs.count
  present := hs.present
  lock := by
    intro w
    rw [hlock, Listens, hworkers]
    exact hs.lock w
  stopped := by
    intro w hw hstop
    have hgone := hs.stopped w (hworkers ▸ hw) hstop client (List.mem_of_getElem? hclient)
    rw [hleft] at hgone
    cases hgone

theorem Staffed.step {size : Nat} (hs : Staffed size p) (hm : Move p a q ds) : Staffed size q := by
  cases hm with
  | asked hclient => exact hs.of_client hclient rfl rfl rfl
  | got hclient hchannel => exact hs.of_client hclient rfl rfl rfl
  | left hclient => exact hs.of_client hclient rfl rfl rfl
  | @acquired w parser hlock hworker =>
    refine ⟨List.length_set.trans hs.count, hs.present, ?_, hs.stopped_set parser rfl⟩
    intro v
    have hfree : ¬ p.Listens v := by simp [← hs.lock, hlock]
    have hset := listens_set hworker parser .listening v
    simp only [and_true, hfree, and_false, or_false] at hset
    show some w = some v ↔ (p.setWorker w parser .listening).Listens v
    rw [hset, Option.some.injEq, eq_comm]
  | took hworker hqueue =>
    exact ⟨List.length_set.trans hs.count, hs.present, hs.unlock_set hworker _ (by simp),
      hs.stopped_set _ rfl⟩
  | parsed hworker =>
    exact ⟨List.length_set.trans hs.count, hs.present, hs.lock_set hworker (by simp) _ (by simp),
      hs.stopped_set _ rfl⟩
  | answered hworker hchannel =>
    exact ⟨List.length_set.trans hs.count, hs.present, hs.lock_set hworker (by simp) _ (by simp),
      hs.stopped_set _ rfl⟩
  | hungUp hworker hclients =>
    exact ⟨List.length_set.trans hs.count, hs.present, hs.unlock_set hworker _ (by simp),
      fun _ _ _ => hclients⟩

/-! ## Something can always be done -/

theorem Ledger.channel_of_working (hl : Ledger p h) (hc : c ∈ p.working) :
    ∃ messages, p.channels[c]? = some messages := by
  have hone := List.count_pos_iff.mpr hc
  have hbalance := hl.balance c
  have hasked : c ∈ h.filterMap Deed.asked? := List.count_pos_iff.mp (by omega)
  rw [hl.issued, List.mem_range] at hasked
  exact ⟨_, List.getElem?_eq_getElem hasked⟩

theorem Ledger.step_of_working (hl : Ledger p h) {w : Nat} {worker : Worker e}
    (hworker : p.workers[w]? = some worker) (hc : worker.stage.channel? = some c) :
    ∃ a, (p.step a).isSome = true := by
  obtain ⟨parser, stage⟩ := worker
  cases stage with
  | parsing job => exact ⟨.parse w, by simp [Pool.step, Pool.parse, hworker]⟩
  | sending k answer =>
    obtain ⟨messages, hk⟩ := hl.channel_of_working (mem_working hworker rfl)
    refine ⟨.send w, ?_⟩
    simp only [Pool.step, send, hworker, hk]
    split <;> rfl
  | idle => cases hc
  | listening => cases hc
  | stopped => cases hc

/-- A request in the queue can be taken, or some worker has to go on first. -/
theorem Staffed.step_of_queued {size : Nat} (hs : Staffed size p) (hl : Ledger p h)
    (hqueue : p.queue ≠ []) {client : Client α} (hclient : client ∈ p.clients)
    (hleft : client.hasLeft = false) : ∃ a, (p.step a).isSome = true := by
  obtain ⟨job, rest, hjob⟩ := List.exists_cons_of_ne_nil hqueue
  have htake : ∀ w, p.Listens w → ∃ a, (p.step a).isSome = true := by
    rintro w ⟨parser, hw⟩
    exact ⟨.take w, by simp [Pool.step, take, hw, hjob]⟩
  obtain ⟨⟨parser, stage⟩, hfirst⟩ : ∃ worker, p.workers[0]? = some worker :=
    ⟨_, List.getElem?_eq_getElem (hs.count ▸ hs.present)⟩
  cases stage with
  | idle =>
    cases hlock : p.lock with
    | none => exact ⟨.acquire 0, by simp [Pool.step, acquire, hlock, hfirst]⟩
    | some w => exact htake w ((hs.lock w).mp hlock)
  | listening => exact htake 0 ⟨parser, hfirst⟩
  | parsing job => exact hl.step_of_working hfirst rfl
  | sending k answer => exact hl.step_of_working hfirst rfl
  | stopped =>
    have hgone := hs.stopped _ (List.mem_of_getElem? hfirst) rfl client hclient
    rw [hleft] at hgone
    cases hgone

/-- While a client has not left, something can be done. -/
theorem exists_step {size : Nat} (hl : Ledger p h) (hs : Staffed size p)
    {client : Client α} (hclient : client ∈ p.clients) (hleft : client.hasLeft = false) :
    ∃ a, (p.step a).isSome = true := by
  obtain ⟨i, hi⟩ := List.getElem?_of_mem hclient
  cases client with
  | running script =>
    cases script with
    | done result => exact ⟨.leave i, by simp [Pool.step, leave, hi]⟩
    | ask r next =>
      refine ⟨.call i, ?_⟩
      simp only [Pool.step, call, hi]
      split <;> rfl
  | waiting k r next =>
    rcases hl.on_its_way (mem_awaited hi) with hqueued | hworking | hpending
    · refine hs.step_of_queued hl ?_ hclient hleft
      rintro hnil
      rw [queued, hnil] at hqueued
      cases hqueued
    · obtain ⟨worker, hworker, hk⟩ := List.mem_filterMap.mp hworking
      obtain ⟨w, hw⟩ := List.getElem?_of_mem hworker
      exact hl.step_of_working hw hk
    · refine ⟨.receive i, ?_⟩
      cases hchannel : p.channels[k]? with
      | none => simp [pending, hchannel] at hpending
      | some messages =>
        cases messages with
        | nil => simp [pending, hchannel] at hpending
        | cons answer rest => simp [Pool.step, receive, hi, hchannel]
  | left result => cases hleft

end CallGraph.Source.Pool
