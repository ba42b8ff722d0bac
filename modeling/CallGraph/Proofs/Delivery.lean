import CallGraph.Proofs.Requests
import Mathlib.Algebra.BigOperators.Group.List.Basic
import Mathlib.Algebra.GroupWithZero.Nat

/-!
A pool gives each client its own answers.

Workers share a queue and keep using parsers that have parsed other texts, and clients run side by
side. Still a client cannot tell that it is not alone with a fresh parser. The record says which
request a channel was made for, and whatever travels with a channel belongs to that request: the job,
the answer of the worker, what is in the channel (`Faithful`). As a channel is made once, this is the
request of the client that waits there. So a script comes to what it comes to if each request is
answered by a fresh parser, and that depends neither on the number of workers nor on the schedule.

What is proved:
1. `Documented.parseOne_eq`: a used parser answers like a fresh one.
2. `Faithful.step`: what travels with a channel belongs to its request.
3. `Move.price`: every step has its price, so no run is longer than the scripts pay for.
4. `extraction_eval`: extraction by asking for trees is extraction.
5. Together: what clients get, and that they get it.
-/

namespace CallGraph.Source

/-! ## Parsers -/

/-- Every request has a tree, the one that a function gives. -/
def Engine.Yields (e : Engine) (parse : String → Tree) : Prop :=
  ∀ r, e.answer r = .ok ⟨parse r.content, r.path, r.content⟩

/-- What a parser did before does not change its answer. -/
theorem Engine.Documented.parseOne_eq {e : Engine} (hd : e.Documented) (parser : e.Parser)
    (r : ParseRequest) : (e.parseOne parser r).1 = e.answer r := by
  have hlanguage := hd.language parser e.fresh r.fileType
  have htree := hd.tree parser e.fresh r.fileType r.content
  unfold answer parseOne
  rcases hp : e.setLanguage parser r.fileType with ⟨refusal, p⟩
  rcases hq : e.setLanguage e.fresh r.fileType with ⟨refusal', q⟩
  rw [hp, hq] at hlanguage htree
  obtain rfl : refusal = refusal' := hlanguage
  cases refusal with
  | some reason => rfl
  | none =>
    rcases hs : e.parse p r.content with ⟨tree, p'⟩
    rcases ht : e.parse q r.content with ⟨tree', q'⟩
    have hsame := htree rfl
    simp only [hs, ht] at hsame
    obtain rfl : tree = tree' := hsame
    simp only [hs, ht]
    cases tree <;> rfl

theorem Engine.grammar_documented : Engine.grammar.Documented :=
  ⟨fun _ _ _ => rfl, fun _ _ _ _ _ => rfl⟩

theorem Engine.grammar_yields : Engine.grammar.Yields Source.parse := by
  rintro ⟨type, content, path⟩
  cases type
  rfl

/-! ## Scripts -/

theorem Script.eval_map {α β : Type} (answer : ParseRequest → Answer) (f : α → β) (s : Script α) :
    (s.map f).eval answer = f (s.eval answer) := by
  induction s with
  | done a => rfl
  | ask r next ih => exact ih (answer r)

theorem FileType.ofPath?_eq (p : Path) :
    FileType.ofPath? p = if isSupported p then some .rust else none := rfl

theorem extraction_eval {e : Engine} {parse : String → Tree} (he : e.Yields parse) (strict : Bool)
    (g : Graph) (index : Nat) (files : List SourceFile) :
    (extraction strict g index files).eval e.answer = extractFrom parse strict g index files := by
  induction files generalizing g index with
  | nil => rfl
  | cons f fs ih =>
    rw [extraction, extractFrom, FileType.ofPath?_eq]
    cases hs : isSupported f.path with
    | false => rfl
    | true =>
      have hanswer := he ⟨.rust, f.content, f.path⟩
      simp only [Bool.not_true, Bool.false_eq_true, if_false, if_true, askFor, Script.eval,
        hanswer, takeAnswer]
      cases faultLine? (parse f.content) with
      | none => exact ih _ _
      | some line =>
        cases strict with
        | true => rfl
        | false => simp [Script.eval_map, ih]

theorem extracting_eval {e : Engine} {parse : String → Tree} (he : e.Yields parse) (strict : Bool)
    (files : List SourceFile) : (extracting strict files).eval e.answer =
      reported files.length (extractFrom parse strict Graph.empty 0 files) := by
  rw [extracting, Script.eval_map, extraction_eval he]

theorem extract_eq (strict : Bool) (files : List SourceFile) : extract strict files =
    reported files.length (extractFrom parse strict Graph.empty 0 files) := by
  rw [extract, extractWith]
  rcases extractFrom parse strict Graph.empty 0 files with ⟨events, result⟩
  cases result <;> rfl

namespace Pool

variable {e : Engine} {α : Type} {p q : Pool e α} {h ds : List Deed} {a : Action}
  {scripts : List (Script α)}

/-! ## What travels with a channel -/

/-- The answer is the one to the request that the channel was made for. -/
def Belongs (e : Engine) (h : List Deed) (c : Nat) (answer : Answer) : Prop :=
  ∃ i r, .asked i c r ∈ h ∧ answer = e.answer r

/-- A client is on the way to the result of its script. -/
inductive Follows (e : Engine) (h : List Deed) (i : Nat) (s : Script α) : Client α → Prop where
  | running {t : Script α} (ht : t.eval e.answer = s.eval e.answer) : Follows e h i s (.running t)
  | waiting {c : Nat} {r : ParseRequest} {next : Answer → Script α} (hasked : .asked i c r ∈ h)
    (hnext : (next (e.answer r)).eval e.answer = s.eval e.answer) :
    Follows e h i s (.waiting c r next)
  | left {result : α} (hresult : result = s.eval e.answer) : Follows e h i s (.left result)

/-- What a worker has belongs to the request that it took. -/
def Carries (e : Engine) (h : List Deed) : Stage → Prop
  | .parsing job => ∃ i, .asked i job.channel job.request ∈ h
  | .sending c answer => Belongs e h c answer
  | _ => True

/-- What is in the queue, at workers and in channels belongs to the requests that were made, and so
does what clients have got. -/
structure Faithful (scripts : List (Script α)) (p : Pool e α) (h : List Deed) : Prop where
  queue : ∀ job ∈ p.queue, ∃ i, .asked i job.channel job.request ∈ h
  workers : ∀ w ∈ p.workers, Carries e h w.stage
  channels : ∀ c messages, p.channels[c]? = some messages → ∀ m ∈ messages, Belongs e h c m
  got : ∀ i c answer, .got i c answer ∈ h → ∃ r, .asked i c r ∈ h ∧ answer = e.answer r
  size : p.clients.length = scripts.length
  clients : ∀ i client s, p.clients[i]? = some client → scripts[i]? = some s →
    Follows e h i s client

theorem Belongs.append {c : Nat} {answer : Answer} (hb : Belongs e h c answer) (ds : List Deed) :
    Belongs e (h ++ ds) c answer := by
  obtain ⟨i, r, hr, ha⟩ := hb
  exact ⟨i, r, List.mem_append_left _ hr, ha⟩

theorem Carries.append {stage : Stage} (hc : Carries e h stage) (ds : List Deed) :
    Carries e (h ++ ds) stage := by
  cases stage with
  | parsing job =>
    obtain ⟨i, hi⟩ := hc
    exact ⟨i, List.mem_append_left _ hi⟩
  | sending c answer => exact Belongs.append hc ds
  | idle => trivial
  | listening => trivial
  | stopped => trivial

theorem Follows.append {i : Nat} {s : Script α} {client : Client α}
    (hf : Follows e h i s client) (ds : List Deed) : Follows e (h ++ ds) i s client := by
  cases hf with
  | running ht => exact .running ht
  | waiting hasked hnext => exact .waiting (List.mem_append_left _ hasked) hnext
  | left hresult => exact .left hresult

theorem eq_of_nodup_filterMap {β : Type} {f : β → Option Nat} {l : List β}
    (hl : (l.filterMap f).Nodup) {x y : β} {c : Nat} (hx : x ∈ l) (hy : y ∈ l) (hfx : f x = some c)
    (hfy : f y = some c) : x = y := by
  induction l with
  | nil => cases hx
  | cons z zs ih =>
    have hmem : ∀ u ∈ zs, f u = some c → c ∈ zs.filterMap f :=
      fun u hu hfu => List.mem_filterMap.mpr ⟨u, hu, hfu⟩
    rcases List.mem_cons.mp hx with rfl | hxs
    · rcases List.mem_cons.mp hy with rfl | hys
      · rfl
      · rw [List.filterMap_cons_some hfx, List.nodup_cons] at hl
        exact absurd (hmem y hys hfy) hl.1
    · rcases List.mem_cons.mp hy with rfl | hys
      · rw [List.filterMap_cons_some hfy, List.nodup_cons] at hl
        exact absurd (hmem x hxs hfx) hl.1
      · have htail : (zs.filterMap f).Nodup :=
          hl.sublist ((List.sublist_cons_self z zs).filterMap f)
        exact ih htail hxs hys

/-- A channel is made for one request of one client. -/
theorem Ledger.asked_unique (hl : Ledger p h) {c i j : Nat} {r s : ParseRequest}
    (hi : .asked i c r ∈ h) (hj : .asked j c s ∈ h) : i = j ∧ r = s := by
  have heq := eq_of_nodup_filterMap hl.nodup_asked hi hj rfl rfl
  injection heq with hij _ hrs
  exact ⟨hij, hrs⟩

theorem faithful_start (e : Engine) (workers : Nat) (scripts : List (Script α)) :
    Faithful scripts (start e workers scripts) [] where
  queue := by simp [start]
  workers := by
    intro w hw
    rw [List.eq_of_mem_replicate hw]
    trivial
  channels := by simp [start]
  got := by simp
  size := List.length_map _
  clients := by
    intro i client s hclient hs
    simp only [start, List.getElem?_map, hs, Option.map_some, Option.some.injEq] at hclient
    exact hclient ▸ .running rfl

namespace Faithful

theorem append (hf : Faithful scripts p h) (ds : List Deed)
    (hds : ∀ i c m, .got i c m ∈ ds → ∃ r, .asked i c r ∈ h ∧ m = e.answer r) :
    Faithful scripts p (h ++ ds) where
  queue := by
    intro job hjob
    obtain ⟨i, hi⟩ := hf.queue job hjob
    exact ⟨i, List.mem_append_left _ hi⟩
  workers := fun w hw => (hf.workers w hw).append ds
  channels := fun c ms hms m hm => (hf.channels c ms hms m hm).append ds
  got := by
    intro i c answer hgot
    obtain ⟨r, hr, ha⟩ := (List.mem_append.mp hgot).elim (hf.got i c answer) (hds i c answer)
    exact ⟨r, List.mem_append_left _ hr, ha⟩
  size := hf.size
  clients := fun i client s hclient hs => (hf.clients i client s hclient hs).append ds

theorem setWorker (hf : Faithful scripts p h) (w : Nat) (parser : e.Parser) (stage : Stage)
    (hstage : Carries e h stage) : Faithful scripts (p.setWorker w parser stage) h :=
  { hf with
    workers := by
      intro worker hmem
      rcases List.mem_or_eq_of_mem_set hmem with hmem | rfl
      · exact hf.workers worker hmem
      · exact hstage }

theorem setClient (hf : Faithful scripts p h) (i : Nat) (client : Client α)
    (hclient : ∀ s, scripts[i]? = some s → Follows e h i s client) :
    Faithful scripts (p.setClient i client) h :=
  { hf with
    size := List.length_set.trans hf.size
    clients := by
      intro k other s hk hs
      simp only [Pool.setClient, List.getElem?_set] at hk
      split at hk
      · next heq =>
        subst heq
        split at hk
        · obtain rfl := Option.some.inj hk
          exact hclient s hs
        · cases hk
      · exact hf.clients k other s hk hs }

theorem setChannel (hf : Faithful scripts p h) (c : Nat) (messages : List Answer)
    (hm : ∀ m ∈ messages, Belongs e h c m) :
    Faithful scripts { p with channels := p.channels.set c messages } h :=
  { hf with
    channels := by
      intro k ms hk
      simp only [List.getElem?_set] at hk
      split at hk
      · next heq =>
        subst heq
        split at hk
        · obtain rfl := Option.some.inj hk
          exact hm
        · cases hk
      · exact hf.channels k ms hk }

/-- What a client waits for is what its channel holds. -/
theorem answer_eq (hf : Faithful scripts p h) (hl : Ledger p h) {i c : Nat} {r : ParseRequest}
    {next : Answer → Script α} {answer : Answer} {rest : List Answer}
    (hclient : p.clients[i]? = some (.waiting c r next))
    (hchannel : p.channels[c]? = some (answer :: rest)) :
    .asked i c r ∈ h ∧ answer = e.answer r := by
  obtain ⟨s, hs⟩ : ∃ s, scripts[i]? = some s := by
    have hlt := (List.getElem?_eq_some_iff.mp hclient).1
    exact ⟨_, List.getElem?_eq_getElem (hf.size ▸ hlt)⟩
  cases hf.clients i _ s hclient hs with
  | waiting hasked _ =>
    obtain ⟨j, r', hr', hanswer⟩ := hf.channels c _ hchannel answer List.mem_cons_self
    obtain ⟨-, rfl⟩ := hl.asked_unique hasked hr'
    exact ⟨hasked, hanswer⟩

/-- What travels with a channel goes on belonging to its request. A parser that has been used answers
like a fresh one. -/
theorem step (hdoc : e.Documented) (hf : Faithful scripts p h) (hl : Ledger p h)
    (hm : Move p a q ds) : Faithful scripts q (h ++ ds) := by
  cases hm with
  | @asked i r next hclient =>
    have hnew : Deed.asked i p.channels.length r ∈ h ++ [.asked i p.channels.length r] := by simp
    have hkeep := hf.append [.asked i p.channels.length r] (by simp)
    have hgo := hkeep.setClient i (.waiting p.channels.length r next) (by
      intro s hs
      cases hf.clients i _ s hclient hs with
      | running ht => exact .waiting hnew ht)
    refine { hgo with queue := ?_, channels := ?_ }
    · intro job hjob
      rcases List.mem_append.mp hjob with hjob | hjob
      · exact hkeep.queue job hjob
      · obtain rfl := List.mem_singleton.mp hjob
        exact ⟨i, hnew⟩
    · intro c ms hms m hmem
      rw [List.getElem?_append] at hms
      split at hms
      · exact hkeep.channels c ms hms m hmem
      · obtain rfl := List.mem_singleton.mp (List.mem_of_getElem? hms)
        cases hmem
  | @got i c r next answer rest hclient hchannel =>
    obtain ⟨hasked, rfl⟩ := hf.answer_eq hl hclient hchannel
    have hkeep := hf.append [.got i c (e.answer r)] (by
      intro j k m hgot
      obtain ⟨rfl, rfl, rfl⟩ := Deed.got.inj (List.mem_singleton.mp hgot)
      exact ⟨r, hasked, rfl⟩)
    have hrest := hkeep.setChannel c rest fun m hm =>
      hkeep.channels c _ hchannel m (List.mem_cons_of_mem _ hm)
    refine hrest.setClient i _ ?_
    intro s hs
    cases hf.clients i _ s hclient hs with
    | waiting _ hnext => exact .running hnext
  | @left i result hclient =>
    rw [List.append_nil]
    refine hf.setClient i _ ?_
    intro s hs
    cases hf.clients i _ s hclient hs with
    | running ht => exact .left ht
  | @acquired w parser hlock hworker =>
    rw [List.append_nil]
    have hgo := hf.setWorker w parser .listening trivial
    exact { hgo with queue := hgo.queue }
  | @took w parser job rest hworker hqueue =>
    have hkeep := hf.append [.took w job.channel] (by simp)
    have hmem : ∀ j ∈ job :: rest, j ∈ p.queue := fun j hj => hqueue ▸ hj
    have hgo := hkeep.setWorker w parser (.parsing job)
      (hkeep.queue job (hmem job List.mem_cons_self))
    exact { hgo with queue := fun j hj => hkeep.queue j (hmem j (List.mem_cons_of_mem _ hj)) }
  | @parsed w parser job hworker =>
    rw [List.append_nil]
    obtain ⟨i, hi⟩ := hf.workers _ (List.mem_of_getElem? hworker)
    exact hf.setWorker w _ _ ⟨i, job.request, hi, hdoc.parseOne_eq parser job.request⟩
  | @answered w k parser answer messages hworker hchannel =>
    have hkeep := hf.append [.answered w k answer] (by simp)
    have hanswer : Belongs e (h ++ [.answered w k answer]) k answer :=
      hkeep.workers _ (List.mem_of_getElem? hworker)
    have hsent := hkeep.setChannel k (messages ++ [answer]) (by
      intro m hm
      rcases List.mem_append.mp hm with hm | hm
      · exact hkeep.channels k _ hchannel m hm
      · rwa [List.mem_singleton.mp hm])
    exact hsent.setWorker w parser .idle trivial
  | @hungUp w parser hworker hclients =>
    rw [List.append_nil]
    have hgo := hf.setWorker w parser .stopped trivial
    exact { hgo with queue := hgo.queue }

end Faithful

/-! ## Every step has its price -/

/-- A sum over a list changes by what one item counts for when another takes its place. -/
theorem sum_map_set {β : Type} (f : β → Nat) {l : List β} {i : Nat} {b : β} (hb : l[i]? = some b)
    (c : β) : ((l.set i c).map f).sum + f b = (l.map f).sum + f c := by
  obtain ⟨hi, rfl⟩ := List.getElem?_eq_some_iff.mp hb
  have hlength : i < (l.map f).length := by rwa [List.length_map]
  have hold := List.sum_set (l.map f) i (f l[i])
  have hnew := List.sum_set (l.map f) i (f c)
  rw [← List.map_set, List.set_getElem_self, if_pos hlength] at hold
  rw [← List.map_set, if_pos hlength] at hnew
  omega

/-- How many steps a worker will make, besides taking another request. -/
def Worker.price (w : Worker e) : Nat :=
  match w.stage with
  | .idle => 2
  | .listening => 1
  | .parsing _ => 5
  | .sending _ _ => 4
  | .stopped => 0

/-- A request takes six steps: it is sent and taken, its tree is made, the answer is sent and
received, and the worker takes the lock again. -/
def Client.price (answer : ParseRequest → Answer) : Client α → Nat
  | .running s => 6 * s.asks answer + 1
  | .waiting _ r next => 6 * (next (answer r)).asks answer + 1
  | .left _ => 0

/-- How many steps can still be made. -/
def price (p : Pool e α) : Nat :=
  5 * p.queue.length + (p.workers.map Worker.price).sum + (p.channels.map List.length).sum +
    (p.clients.map (Client.price e.answer)).sum

theorem Move.price (hf : Faithful scripts p h) (hl : Ledger p h) (hm : Move p a q ds) :
    q.price + 1 = p.price := by
  cases hm with
  | @asked i r next hclient =>
    have hset := sum_map_set (Client.price e.answer) hclient (.waiting p.channels.length r next)
    simp only [Client.price, Script.asks] at hset
    simp only [Pool.price, setClient, List.map_append, List.sum_append, List.map_singleton,
      List.sum_singleton, List.length_append, List.length_nil, List.length_singleton]
    omega
  | @got i c r next answer rest hclient hchannel =>
    obtain ⟨-, rfl⟩ := hf.answer_eq hl hclient hchannel
    have hset := sum_map_set (Client.price e.answer) hclient (.running (next (e.answer r)))
    have hchannels := sum_map_set List.length hchannel rest
    simp only [Client.price, List.length_cons] at hset hchannels
    simp only [Pool.price, setClient]
    omega
  | @left i result hclient =>
    have hset := sum_map_set (Client.price e.answer) hclient (.left result)
    simp only [Client.price, Script.asks] at hset
    simp only [Pool.price, setClient]
    omega
  | @acquired w parser hlock hworker =>
    have hset := sum_map_set Worker.price hworker ⟨parser, .listening⟩
    simp only [Worker.price] at hset
    simp only [Pool.price, setWorker]
    omega
  | @took w parser job rest hworker hqueue =>
    have hset := sum_map_set Worker.price hworker ⟨parser, .parsing job⟩
    simp only [Worker.price] at hset
    simp only [Pool.price, setWorker, hqueue, List.length_cons]
    omega
  | @parsed w parser job hworker =>
    have hset := sum_map_set Worker.price hworker
      ⟨(e.parseOne parser job.request).2, .sending job.channel (e.parseOne parser job.request).1⟩
    simp only [Worker.price] at hset
    simp only [Pool.price, setWorker]
    omega
  | @answered w k parser answer messages hworker hchannel =>
    have hset := sum_map_set Worker.price hworker ⟨parser, .idle⟩
    have hchannels := sum_map_set List.length hchannel (messages ++ [answer])
    simp only [Worker.price, List.length_append, List.length_singleton] at hset hchannels
    simp only [Pool.price, setWorker]
    omega
  | @hungUp w parser hworker hclients =>
    have hset := sum_map_set Worker.price hworker ⟨parser, .stopped⟩
    simp only [Worker.price] at hset
    simp only [Pool.price, setWorker]
    omega

/-- What a pool and its clients start with. -/
def budget (e : Engine) (workers : Nat) (scripts : List (Script α)) : Nat :=
  2 * max workers 1 + (scripts.map fun s => 6 * s.asks e.answer + 1).sum

theorem price_start (e : Engine) (workers : Nat) (scripts : List (Script α)) :
    (start e workers scripts).price = budget e workers scripts := by
  have hworkers : ((start e workers scripts).workers.map Worker.price).sum =
      max workers 1 * 2 := by
    simp [start, Worker.price]
  have hclients : (start e workers scripts).clients.map (Client.price e.answer) =
      scripts.map fun s => 6 * s.asks e.answer + 1 := List.map_map
  rw [price, hworkers, hclients, budget]
  simp only [start, List.length_nil, List.map_nil, List.sum_nil]
  omega

/-! ## What clients get -/

/-- What holds of a pool after a number of steps. -/
structure Reached (workers : Nat) (scripts : List (Script α)) (k : Nat) (p : Pool e α)
    (h : List Deed) : Prop where
  ledger : Ledger p h
  staffed : Staffed (max workers 1) p
  faithful : Faithful scripts p h
  fair : ∀ d ∈ h, d.isFailure = false
  price : p.price + k = budget e workers scripts

theorem reached_start (e : Engine) (workers : Nat) (scripts : List (Script α)) :
    Reached workers scripts 0 (start e workers scripts) [] :=
  ⟨ledger_start e workers scripts, staffed_start e workers scripts,
    faithful_start e workers scripts, by simp, price_start e workers scripts⟩

theorem Reached.step {workers k : Nat} (hdoc : e.Documented) (hr : Reached workers scripts k p h)
    (hstep : p.step a = some (q, ds)) : Reached workers scripts (k + 1) q (h ++ ds) := by
  have hm := move_of_step hr.ledger hr.staffed hstep
  refine ⟨hr.ledger.step hm, hr.staffed.step hm, hr.faithful.step hdoc hr.ledger hm, ?_, ?_⟩
  · intro d hd
    exact (List.mem_append.mp hd).elim (hr.fair d) (hm.not_isFailure d)
  · have hcost := hm.price hr.faithful hr.ledger
    have hbefore := hr.price
    omega

theorem reached_of_run {workers : Nat} {schedule : List Action} (hdoc : e.Documented)
    (hrun : (start e workers scripts).run schedule = some (p, h)) :
    Reached workers scripts schedule.length p h := by
  refine Machine.run_invariant (P := fun as => Reached workers scripts as.length)
    (reached_start e workers scripts) ?_ hrun
  intro as q done a r more _ hr hstep
  rw [List.length_append, List.length_singleton]
  exact hr.step hdoc hstep

namespace Reached

variable {workers k : Nat}

theorem result_eq (hr : Reached workers scripts k p h) {i : Nat} {result : α}
    (hclient : p.clients[i]? = some (.left result)) :
    ∃ s, scripts[i]? = some s ∧ result = s.eval e.answer := by
  have hlt := (List.getElem?_eq_some_iff.mp hclient).1
  have hs := List.getElem?_eq_getElem (hr.faithful.size ▸ hlt)
  refine ⟨_, hs, ?_⟩
  cases hr.faithful.clients i _ _ hclient hs with
  | left hresult => exact hresult

/-- When nothing can be done any more, every client has left with its result. -/
theorem clients_eq (hr : Reached workers scripts k p h) (hend : ∀ a, p.step a = none) :
    p.clients = scripts.map fun s => .left (s.eval e.answer) := by
  have hleft : ∀ client ∈ p.clients, client.hasLeft = true := by
    intro client hclient
    by_contra hnot
    obtain ⟨a, ha⟩ := exists_step hr.ledger hr.staffed hclient (by simpa using hnot)
    rw [hend a] at ha
    cases ha
  apply List.ext_getElem?
  intro i
  rw [List.getElem?_map]
  cases hclient : p.clients[i]? with
  | none =>
    have hlen := List.getElem?_eq_none_iff.mp hclient
    rw [hr.faithful.size] at hlen
    rw [List.getElem?_eq_none hlen]
    rfl
  | some client =>
    cases client with
    | left result =>
      obtain ⟨s, hs, rfl⟩ := hr.result_eq hclient
      rw [hs]
      rfl
    | running s => cases hleft _ (List.mem_of_getElem? hclient)
    | waiting c r next => cases hleft _ (List.mem_of_getElem? hclient)

end Reached

/-- A pool of any size gives each client its own answers, in every run, if a parser answers alike
whatever it did before. There is at least one worker. No request is taken twice and none is answered
twice; none is refused and none is lost. An answer that a client receives is the one of a fresh parser
to the request that this client sent, and the channel that it came through was made for no other. So a
client that has left has the result of its script, whatever the size of the pool and the order of
steps. A run that cannot go on has all clients served, and no run is longer than the requests of the
scripts allow. For an extraction, the result is that of extracting with the trees of the parsers. -/
theorem pool_serves_each_client (e : Engine) (hdoc : e.Documented) (workers : Nat)
    (scripts : List (Script α)) (schedule : List Action) (p : Pool e α) (deeds : List Deed)
    (hrun : (start e workers scripts).run schedule = some (p, deeds)) :
    p.workers.length = max workers 1 ∧
    (deeds.filterMap Deed.took?).Nodup ∧
    (deeds.filterMap Deed.answered?).Nodup ∧
    (deeds.filterMap Deed.got?).Nodup ∧
    (∀ d ∈ deeds, d.isFailure = false) ∧
    (∀ i c answer, .got i c answer ∈ deeds → ∃ r, .asked i c r ∈ deeds ∧
      answer = (e.parseOne e.fresh r).1 ∧ ∀ j s, .asked j c s ∈ deeds → j = i ∧ s = r) ∧
    (∀ (i : Nat) result, p.clients[i]? = some (.left result) →
      ∃ s, scripts[i]? = some s ∧ result = s.eval e.answer) ∧
    ((∀ a, p.step a = none) → p.clients = scripts.map fun s => .left (s.eval e.answer)) ∧
    schedule.length ≤ budget e workers scripts ∧
    ∀ parse, e.Yields parse → ∀ strict files, (extracting strict files).eval e.answer =
      reported files.length (extractFrom parse strict Graph.empty 0 files) := by
  have hr := reached_of_run hdoc hrun
  obtain ⟨htook, hanswered, hgot⟩ := hr.ledger.nodup
  refine ⟨hr.staffed.count, htook, hanswered, hgot, hr.fair, ?_, fun i result => hr.result_eq,
    hr.clients_eq, ?_, fun parse hparse => extracting_eval hparse⟩
  · intro i c answer hgot
    obtain ⟨r, hasked, hanswer⟩ := hr.faithful.got i c answer hgot
    exact ⟨r, hasked, hanswer, fun j s hs => hr.ledger.asked_unique hs hasked⟩
  · have := hr.price
    omega

/-- Two clients with a file each. -/
def pair : List (Script Parsed) :=
  [extracting true [⟨⟨"a.rs"⟩, "fn f() \x7b\x7d"⟩], extracting true [⟨⟨"b.rs"⟩, "fn g() \x7b"⟩]]

/-- The client that asks second is the one that gets its answer first, from the only worker. -/
def pairActions : List Action :=
  [.call 1, .call 0, .acquire 0, .take 0, .parse 0, .send 0, .acquire 0, .take 0, .parse 0, .send 0,
    .receive 0, .leave 0, .receive 1, .leave 1]

/-- In this run each client leaves with the extraction of its own file. -/
theorem pool_serves_each_client_pair :
    ∃ p deeds, (start Engine.grammar 0 pair).run pairActions = some (p, deeds) ∧
    p.workers.length = 1 ∧
    p.clients[0]? = some (.left (extract true [⟨⟨"a.rs"⟩, "fn f() \x7b\x7d"⟩])) ∧
    p.clients[1]? = some (.left (extract true [⟨⟨"b.rs"⟩, "fn g() \x7b"⟩])) := by
  have hview : ((start Engine.grammar 0 pair).run pairActions).map
      (fun r => r.1.clients.map Client.hasLeft) = some [true, true] := by
    decide +kernel
  obtain ⟨⟨p, deeds⟩, hrun, heq⟩ := Option.map_eq_some_iff.mp hview
  obtain ⟨hworkers, _, _, _, _, _, hresult, _, _, hextract⟩ :=
    pool_serves_each_client _ Engine.grammar_documented 0 pair pairActions p deeds hrun
  have hleft : ∀ (i : Nat) strict files, (p.clients.map Client.hasLeft)[i]? = some true →
      pair[i]? = some (extracting strict files) →
      p.clients[i]? = some (.left (extract strict files)) := by
    intro i strict files hi hs
    rw [List.getElem?_map] at hi
    obtain ⟨client, hclient, hgone⟩ := Option.map_eq_some_iff.mp hi
    cases client with
    | running s => cases hgone
    | waiting c r next => cases hgone
    | left result =>
      obtain ⟨s, hs', rfl⟩ := hresult i result hclient
      obtain rfl := Option.some.inj (hs.symm.trans hs')
      rw [hclient, hextract _ Engine.grammar_yields, extract_eq]
  exact ⟨p, deeds, hrun, hworkers, hleft 0 _ _ (by rw [heq]; rfl) rfl,
    hleft 1 _ _ (by rw [heq]; rfl) rfl⟩

end Pool

end CallGraph.Source
