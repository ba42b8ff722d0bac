import CallGraph.Proofs.History
import CallGraph.Watch.Loop

/-!
The loop of a service loses no change.

Notifications come at any time, the quiet period ends at any time, a build takes as long as it takes
and may fail, and the queue may be closed while the loop settles. What the loop has done is a record
of deeds, and the phase it is in can be read off the record (`Orderly`): it settles exactly if a notice
in scope was taken and no build was started since (`Due`), and it builds exactly if a build was started
that has not finished (`Running`).

What is proved:
1. `queue_step`: what has come is what was taken and what is still queued, in this order.
2. `Orderly.step`: the record and the phase go together, and no build is started while one runs.
3. `run_takes`, `exists_idle`: the loop can always take all that is queued and come to wait again, also
   if every build fails.
4. `Service.serve_run`: a service that takes whole batches does what the loop does.
-/

namespace CallGraph

open Volume (Edit Signal)

/-- The notices of a notification: one for each path that has one of the extensions and no ignored
name on its way. If the notification is about no change, there are none. -/
def Notification.notices (n : Notification) (w : Watcher) : List Notice :=
  match n.change? with
  | some change =>
    (n.paths.filter fun p => p.hasExtension w.extensions &&
      p.components.all fun c => !(["target", ".git", ".callfold"].contains c.text)).map (⟨change, ·⟩)
  | none => []

namespace Loop

/-- What an action adds to the queue. -/
def Action.arrivals (w : Watcher) : Action → List Notice
  | .notify n => n.notices w
  | _ => []

def Deed.notice? : Deed → Option Notice
  | .detected n | .coalesced n | .dropped n => some n
  | _ => none

/-- How the build ended that has finished. -/
def Deed.outcome? : Deed → Option Outcome
  | .finished outcome => some outcome
  | _ => none

/-- Whether a notice in scope was taken. -/
def Deed.consumes : Deed → Bool
  | .detected _ | .coalesced _ => true
  | _ => false

/-- A notice in scope was taken, and no build was started since. -/
def Due (deeds : List Deed) : Prop := Since (fun d => d.consumes = true) (fun d => d ≠ .started) deeds

/-- A build was started and has not finished. -/
def Running (deeds : List Deed) : Prop :=
  Since (fun d => d = .started) (fun d => ∀ outcome, d ≠ .finished outcome) deeds

variable {l m : Loop} {a : Action} {as bs : List Action} {ds es : List Deed} {d : Deed}

/-! ## What comes in -/

theorem passes_eq (w : Watcher) (change : Volume.Change) (p : Path) :
    w.passes ⟨change, p⟩ = (p.hasExtension w.extensions &&
      p.components.all fun c => !(["target", ".git", ".callfold"].contains c.text)) := by
  show (!Watcher.isIgnored p && p.hasExtension w.extensions) = _
  rw [Bool.and_comm, Watcher.isIgnored, List.not_any_eq_all_not]
  rfl

theorem enqueue_eq (w : Watcher) (change : Volume.Change) (queue : List Notice) (ps : List Path) :
    w.enqueue change queue ps = queue ++ (⟨some change, ps⟩ : Notification).notices w := by
  -- each path that is passed on goes to the end of the queue, so the queue varies
  induction ps generalizing queue with
  | nil => simp [Watcher.enqueue, Notification.notices]
  | cons p ps ih =>
    rw [Watcher.enqueue, passes_eq]
    split
    · next h =>
      rw [ih, List.append_assoc]
      simp only [Notification.notices, List.filter_cons, h, if_true, List.map_cons]
      rfl
    · next h =>
      rw [ih]
      simp only [Notification.notices, List.filter_cons, h]
      rfl

theorem receive_eq (l : Loop) (n : Notification) :
    l.receive n = { l with queue := l.queue ++ n.notices l.watcher } := by
  obtain ⟨change?, paths⟩ := n
  cases change? with
  | none => simp [receive, Notification.notices]
  | some change => simp only [receive, enqueue_eq]

/-! ## What a step does -/

/-- Every step of the loop, with what it needs and what it changes. -/
inductive Step (l : Loop) : Action → Loop → List Deed → Prop where
  | notified (n : Notification) (hopen : l.closed = false) :
    Step l (.notify n) { l with queue := l.queue ++ n.notices l.watcher } []
  | changed (v : Volume) : Step l (.change v) { l with volume := v } []
  | closed : Step l .close { l with closed := true } []
  | detected {n : Notice} {rest : List Notice} (hqueue : l.queue = n :: rest)
    (hphase : l.phase = .waiting) (hscope : l.watcher.isWatching l.volume n.path = true) :
    Step l .take { l with queue := rest, phase := .settling } [.detected n]
  | coalesced {n : Notice} {rest : List Notice} (hqueue : l.queue = n :: rest)
    (hphase : l.phase = .settling) (hscope : l.watcher.isWatching l.volume n.path = true) :
    Step l .take { l with queue := rest } [.coalesced n]
  | dropped {n : Notice} {rest : List Notice} (hqueue : l.queue = n :: rest)
    (hphase : l.phase = .waiting ∨ l.phase = .settling)
    (hscope : l.watcher.isWatching l.volume n.path = false) :
    Step l .take { l with queue := rest } [.dropped n]
  | started (hphase : l.phase = .settling) (a : Action) (ha : a = .expire ∨ a = .hangUp) :
    Step l a { l with phase := .rebuilding } [.started]
  | stopped (hphase : l.phase = .waiting) (hclosed : l.closed = true) (hqueue : l.queue = []) :
    Step l .hangUp { l with phase := .stopped } [.stopped]
  | finished (hphase : l.phase = .rebuilding) (outcome : Outcome) :
    Step l (.finish outcome) { l with phase := .waiting } [.finished outcome]

theorem step_of_take (h : l.take = some (m, ds)) : Step l .take m ds := by
  unfold take at h
  split at h
  · cases h
  · next n rest hqueue =>
    dsimp only at h
    split at h
    · next hphase =>
      split at h
      · next hscope =>
        cases h
        exact .detected hqueue hphase hscope
      · next hscope =>
        cases h
        exact .dropped hqueue (Or.inl hphase) (by simpa using hscope)
    · next hphase =>
      cases hscope : l.watcher.isWatching l.volume n.path with
      | true =>
        rw [hscope] at h
        cases h
        exact .coalesced hqueue hphase hscope
      | false =>
        rw [hscope] at h
        cases h
        exact .dropped hqueue (Or.inr hphase) hscope
    · cases h

theorem step_of_build (ha : a = .expire ∨ a = .hangUp) (h : l.build = some (m, ds)) :
    Step l a m ds := by
  unfold build at h
  split at h
  · next hphase =>
    cases h
    exact .started hphase a ha
  · cases h

theorem step_of_step (h : l.step a = some (m, ds)) : Step l a m ds := by
  cases a with
  | notify n =>
    rw [step] at h
    split at h
    · cases h
    · next hopen =>
      rw [receive_eq] at h
      cases h
      exact .notified n (by simpa using hopen)
  | change v =>
    cases h
    exact .changed v
  | close =>
    cases h
    exact .closed
  | take => exact step_of_take h
  | expire => exact step_of_build (Or.inl rfl) h
  | hangUp =>
    rw [step] at h
    split at h
    · next hend =>
      rw [Bool.and_eq_true, List.isEmpty_iff] at hend
      split at h
      · next hphase =>
        cases h
        exact .stopped hphase hend.1 hend.2
      · exact step_of_build (Or.inr rfl) h
    · cases h
  | finish outcome =>
    rw [step] at h
    split at h
    · next hphase =>
      cases h
      exact .finished hphase outcome
    · cases h

/-! ## Nothing is lost -/

theorem watcher_step (h : Step l a m es) : m.watcher = l.watcher := by
  cases h <;> rfl

theorem queue_step (h : Step l a m es) :
    l.queue ++ a.arrivals l.watcher = es.filterMap Deed.notice? ++ m.queue := by
  cases h with
  | notified n hopen => rfl
  | changed v => simp [Action.arrivals]
  | closed => simp [Action.arrivals]
  | detected hqueue hphase hscope => simp [Action.arrivals, Deed.notice?, hqueue]
  | coalesced hqueue hphase hscope => simp [Action.arrivals, Deed.notice?, hqueue]
  | dropped hqueue hphase hscope => simp [Action.arrivals, Deed.notice?, hqueue]
  | started hphase a ha => rcases ha with rfl | rfl <;> simp [Action.arrivals, Deed.notice?]
  | stopped hphase hclosed hqueue => simp [Action.arrivals, Deed.notice?]
  | finished hphase outcome => simp [Action.arrivals, Deed.notice?]

theorem watcher_run (h : l.run as = some (m, ds)) : m.watcher = l.watcher := by
  refine Machine.run_invariant (P := fun _ m _ => m.watcher = l.watcher) rfl ?_ h
  intro as k done a m es _ hk hs
  exact (watcher_step (step_of_step hs)).trans hk

/-- What was queued and what has come is what was taken and what is still queued. -/
theorem queue_run (h : l.run as = some (m, ds)) :
    l.queue ++ as.flatMap (Action.arrivals l.watcher) = ds.filterMap Deed.notice? ++ m.queue := by
  refine Machine.run_invariant (P := fun as m ds =>
    l.queue ++ as.flatMap (Action.arrivals l.watcher) = ds.filterMap Deed.notice? ++ m.queue)
    (by simp) ?_ h
  intro as k done a m es hk hqueue hs
  have hnext := queue_step (step_of_step hs)
  rw [watcher_run hk] at hnext
  calc l.queue ++ (as ++ [a]).flatMap (Action.arrivals l.watcher)
      = (l.queue ++ as.flatMap (Action.arrivals l.watcher)) ++ a.arrivals l.watcher := by simp
    _ = done.filterMap Deed.notice? ++ (k.queue ++ a.arrivals l.watcher) := by
        rw [hqueue, List.append_assoc]
    _ = (done ++ es).filterMap Deed.notice? ++ m.queue := by
        rw [hnext, List.filterMap_append, List.append_assoc]

/-- What the loop does with a notice that it takes. -/
def verdict (l : Loop) (n : Notice) : Deed :=
  if l.watcher.isWatching l.volume n.path then
    if l.phase = .waiting then .detected n else .coalesced n
  else .dropped n

theorem deeds_step (h : Step l a m es) : es = [] ∨ ∃ d, es = [d] := by
  cases h <;> simp

theorem verdict_step {n : Notice} (h : Step l a m [d]) (hn : d.notice? = some n) :
    a = .take ∧ d = l.verdict n := by
  cases h with
  | detected hqueue hphase hscope =>
    cases hn
    exact ⟨rfl, by simp [verdict, hscope, hphase]⟩
  | coalesced hqueue hphase hscope =>
    cases hn
    exact ⟨rfl, by simp [verdict, hscope, hphase]⟩
  | dropped hqueue hphase hscope =>
    cases hn
    exact ⟨rfl, by simp [verdict, hscope]⟩
  | started hphase a ha => cases hn
  | stopped hphase hclosed hqueue => cases hn
  | finished hphase outcome => cases hn

/-- Each notice is judged when it is taken, by the file tree of that moment. -/
theorem verdict_run (h : l.run as = some (m, ds)) :
    ∀ done d later n, ds = done ++ d :: later → d.notice? = some n →
      ∃ before k, before ++ [.take] <+: as ∧ l.run before = some (k, done) ∧ d = k.verdict n := by
  refine Machine.run_invariant (P := fun as _ ds => ∀ done d later n, ds = done ++ d :: later →
    d.notice? = some n → ∃ before k, before ++ [.take] <+: as ∧ l.run before = some (k, done) ∧
      d = k.verdict n) (by simp) ?_ h
  intro as k record a m es hk ih hs done d later n heq hn
  -- what was taken before this step was taken in the run so far
  have hearlier : ∀ rest, record = done ++ d :: rest → ∃ before k, before ++ [.take] <+: as ++ [a] ∧
      l.run before = some (k, done) ∧ d = k.verdict n := by
    intro rest hrecord
    obtain ⟨before, j, hbefore, hj, hverdict⟩ := ih done d rest n hrecord hn
    exact ⟨before, j, hbefore.trans (List.prefix_append as [a]), hj, hverdict⟩
  rcases deeds_step (step_of_step hs) with rfl | ⟨e, rfl⟩
  · rw [List.append_nil] at heq
    exact hearlier later heq
  · rcases append_singleton_eq_split heq with ⟨_, rfl, rfl⟩ | ⟨rest, _, hrecord⟩
    · obtain ⟨rfl, hverdict⟩ := verdict_step (step_of_step hs) hn
      exact ⟨as, k, List.prefix_rfl, hk, hverdict⟩
    · exact hearlier rest hrecord

/-! ## Every change is built, one build after the other -/

/-- The record of a loop goes with its phase. -/
structure Orderly (l : Loop) (deeds : List Deed) : Prop where
  due : Due deeds ↔ l.phase = .settling
  running : Running deeds ↔ l.phase = .rebuilding
  /-- A build is started when none is running. -/
  alone : ∀ before after, deeds = before ++ .started :: after → ¬ Running before
  stopped : l.phase = .stopped → l.closed = true ∧ l.queue = []

theorem orderly_start (w : Watcher) (v : Volume) (queue : List Notice) :
    Orderly (start w v queue) [.started] where
  due := by
    rw [Due, ← List.nil_append [Deed.started], since_snoc]
    simp [Deed.consumes, start]
  running := by
    rw [Running, ← List.nil_append [Deed.started], since_snoc]
    simp [start]
  alone := by
    intro before after heq
    have hnil : before = [] := by
      cases before with
      | nil => rfl
      | cons d before => simp at heq
    rw [hnil]
    exact not_since_nil
  stopped := by simp [start]

theorem Orderly.quiet (h : Orderly l ds) (hphase : m.phase = l.phase)
    (hstop : l.phase = .stopped → m.closed = true ∧ m.queue = []) : Orderly m (ds ++ []) where
  due := by rw [List.append_nil, hphase, h.due]
  running := by rw [List.append_nil, hphase, h.running]
  alone := by
    rw [List.append_nil]
    exact h.alone
  stopped := by rwa [hphase]

theorem Orderly.snoc (h : Orderly l ds)
    (hdue : (d.consumes = true ∨ l.phase = .settling ∧ d ≠ .started) ↔ m.phase = .settling)
    (hrunning : (d = .started ∨ l.phase = .rebuilding ∧ ∀ outcome, d ≠ .finished outcome) ↔
      m.phase = .rebuilding)
    (halone : d = .started → l.phase ≠ .rebuilding)
    (hstop : m.phase = .stopped → m.closed = true ∧ m.queue = []) : Orderly m (ds ++ [d]) where
  due := by
    rw [Due, since_snoc, ← hdue, ← h.due]
    rfl
  running := by
    rw [Running, since_snoc, ← hrunning, ← h.running]
    rfl
  alone := by
    intro before after heq
    rcases append_singleton_eq_split heq with ⟨_, rfl, hd⟩ | ⟨rest, _, hds⟩
    · rw [h.running]
      exact halone hd.symm
    · exact h.alone before rest hds
  stopped := hstop

theorem Orderly.step (h : Orderly l ds) (hs : Step l a m es) : Orderly m (ds ++ es) := by
  cases hs with
  | notified n hopen =>
    refine h.quiet rfl ?_
    -- a loop that has stopped is closed, so nothing comes any more
    intro hphase
    rw [(h.stopped hphase).1] at hopen
    cases hopen
  | changed v => exact h.quiet rfl h.stopped
  | closed => exact h.quiet rfl fun hphase => ⟨rfl, (h.stopped hphase).2⟩
  | detected hqueue hphase hscope =>
    apply h.snoc <;> simp [Deed.consumes, hphase]
  | coalesced hqueue hphase hscope =>
    apply h.snoc <;> simp [Deed.consumes, hphase]
  | dropped hqueue hphase hscope =>
    rcases hphase with hphase | hphase <;> apply h.snoc <;> simp [Deed.consumes, hphase]
  | started hphase a ha =>
    apply h.snoc <;> simp [Deed.consumes, hphase]
  | stopped hphase hclosed hqueue =>
    apply h.snoc <;> simp [Deed.consumes, hphase, hclosed, hqueue]
  | finished hphase outcome =>
    apply h.snoc <;> simp [Deed.consumes, hphase]

theorem orderly_run {w : Watcher} {v : Volume} {queue : List Notice}
    (h : (start w v queue).run as = some (m, ds)) : Orderly m (.started :: ds) := by
  refine Machine.run_invariant (P := fun _ m ds => Orderly m (.started :: ds))
    (orderly_start w v queue) ?_ h
  intro as k done a m es _ hk hs
  exact hk.step (step_of_step hs)

/-! ## The loop goes on -/

/-- The loop can take all that is queued. If any of it is in scope, it settles then. -/
theorem run_takes (hphase : l.phase = .waiting ∨ l.phase = .settling) :
    ∃ ds, l.run (List.replicate l.queue.length .take) = some ({ l with
      queue := []
      phase := if (l.watcher.inScope l.volume l.queue).isEmpty then l.phase else .settling }, ds) ∧
      ds.filterMap Deed.outcome? = [] := by
  generalize hq : l.queue = queue
  -- taking a notice in scope changes the phase, but to one in which the loop goes on taking
  induction queue generalizing l with
  | nil =>
    obtain ⟨w, v, q, closed, phase⟩ := l
    subst hq
    exact ⟨[], rfl, rfl⟩
  | cons n rest ih =>
    rw [List.length_cons, List.replicate_succ]
    cases hscope : l.watcher.isWatching l.volume n.path with
    | false =>
      have htake : l.step .take = some ({ l with queue := rest }, [.dropped n]) := by
        rcases hphase with hp | hp <;> simp [step, take, hq, hp, hscope]
      obtain ⟨ds, hrun, hno⟩ := ih (l := { l with queue := rest }) hphase rfl
      refine ⟨.dropped n :: ds, ?_, hno⟩
      simpa [Watcher.inScope, hscope] using Machine.run_cons htake hrun
    | true =>
      obtain ⟨d, hd, htake⟩ : ∃ d, d.outcome? = none ∧
          l.step .take = some ({ l with queue := rest, phase := .settling }, [d]) := by
        rcases hphase with hp | hp
        · exact ⟨.detected n, rfl, by simp [step, take, hq, hp, hscope]⟩
        · exact ⟨.coalesced n, rfl, by simp [step, take, hq, hp, hscope]⟩
      obtain ⟨ds, hrun, hno⟩ := ih (l := { l with queue := rest, phase := .settling }) (Or.inr rfl) rfl
      refine ⟨d :: ds, ?_, (List.filterMap_cons_none hd).trans hno⟩
      simpa [Watcher.inScope, hscope] using Machine.run_cons htake hrun

/-- A loop that does not build takes what there is, and builds if it settles then. -/
theorem exists_idle_of_taking (hphase : l.phase = .waiting ∨ l.phase = .settling)
    (outcome : Outcome) :
    ∃ as ds, (∀ a ∈ as, a = .take ∨ a = .expire ∨ a = .finish outcome) ∧
      l.run as = some ({ l with queue := [], phase := .waiting }, ds) := by
  obtain ⟨ds, hrun, _⟩ := run_takes hphase
  have htakes : ∀ a ∈ List.replicate l.queue.length Action.take,
      a = .take ∨ a = .expire ∨ a = .finish outcome :=
    fun a ha => Or.inl (List.eq_of_mem_replicate ha)
  by_cases hend : (l.watcher.inScope l.volume l.queue).isEmpty = true ∧ l.phase = .waiting
  · rw [if_pos hend.1, hend.2] at hrun
    exact ⟨_, ds, htakes, hrun⟩
  · have hsettling : (if (l.watcher.inScope l.volume l.queue).isEmpty then l.phase else .settling) =
        .settling := by
      split
      · next hnone => exact hphase.resolve_left fun hwaiting => hend ⟨hnone, hwaiting⟩
      · rfl
    rw [hsettling] at hrun
    refine ⟨List.replicate l.queue.length .take ++ [.expire, .finish outcome],
      ds ++ [.started, .finished outcome], ?_, Machine.run_trans hrun rfl⟩
    rw [List.forall_mem_append]
    exact ⟨htakes, by simp⟩

/-- A loop that has not stopped can come to wait with nothing queued, whatever its builds come to. -/
theorem exists_idle (hphase : l.phase ≠ .stopped) (outcome : Outcome) :
    ∃ as ds, (∀ a ∈ as, a = .take ∨ a = .expire ∨ a = .finish outcome) ∧
      l.run as = some ({ l with queue := [], phase := .waiting }, ds) := by
  cases hp : l.phase with
  | stopped => exact absurd hp hphase
  | waiting => exact exists_idle_of_taking (Or.inl hp) outcome
  | settling => exact exists_idle_of_taking (Or.inr hp) outcome
  | rebuilding =>
    have hfinish : l.run [.finish outcome] =
        some ({ l with phase := .waiting }, [.finished outcome]) := by
      simp [Machine.run_singleton, step, hp]
    obtain ⟨as, ds, has, hrun⟩ :=
      exists_idle_of_taking (l := { l with phase := .waiting }) (Or.inl rfl) outcome
    refine ⟨[.finish outcome] ++ as, _, ?_, Machine.run_trans hfinish hrun⟩
    rw [List.forall_mem_append]
    exact ⟨by simp, has⟩

/-! ## The theorem -/

theorem started_of_not_due {before after : List Deed} (h : ¬ Due ds) (heq : ds = before ++ d :: after)
    (hd : d.consumes = true) : .started ∈ after := by
  by_contra hno
  exact h ⟨before, d, after, heq, hd, fun e he hstarted => hno (hstarted ▸ he)⟩

theorem finished_of_not_running {before after : List Deed} (h : ¬ Running ds)
    (heq : ds = before ++ .started :: after) : ∃ outcome, .finished outcome ∈ after := by
  by_contra hno
  refine h ⟨before, .started, after, heq, rfl, ?_⟩
  rintro e he outcome rfl
  exact hno ⟨outcome, he⟩

/-- The loop loses no change. Whatever happens, and in whatever order:
1. what has come is what was taken and what is still queued, each notice once and in order;
2. a notice is consumed if it is in scope when it is taken, and dropped if not;
3. when the loop waits, every notice that was consumed has been followed by a build that was started
   after it and has finished;
4. between the starts of two builds, one has finished;
5. a build that ends, however it ends, makes the loop wait; the loop stops only when the queue is
   closed and empty, and up to then it can take all that is queued and wait again, also if every
   build fails. -/
theorem run_loses_no_change (w : Watcher) (v : Volume) (queue : List Notice) (as : List Action)
    (l : Loop) (deeds : List Deed) (h : (start w v queue).run as = some (l, deeds)) :
    queue ++ as.flatMap (Action.arrivals w) = deeds.filterMap Deed.notice? ++ l.queue ∧
    (∀ done d later n, deeds = done ++ d :: later → d.notice? = some n →
      ∃ before k, before ++ [.take] <+: as ∧ (start w v queue).run before = some (k, done) ∧
        d = if w.isWatching k.volume n.path then
            if k.phase = .waiting then .detected n else .coalesced n
          else .dropped n) ∧
    (l.phase = .waiting → ∀ before d after, deeds = before ++ d :: after → d.consumes = true →
      ∃ first second outcome, after = first ++ .started :: second ∧ .finished outcome ∈ second) ∧
    (∀ before between after,
      .started :: deeds = before ++ .started :: between ++ .started :: after →
        ∃ outcome, .finished outcome ∈ between) ∧
    (l.phase = .rebuilding → ∀ outcome,
      l.step (.finish outcome) = some ({ l with phase := .waiting }, [.finished outcome])) ∧
    (l.phase = .stopped → l.closed = true ∧ l.queue = []) ∧
    (l.phase ≠ .stopped → ∀ outcome, ∃ more ds,
      (∀ a ∈ more, a = .take ∨ a = .expire ∨ a = .finish outcome) ∧
        l.run more = some ({ l with queue := [], phase := .waiting }, ds)) := by
  have horderly := orderly_run h
  refine ⟨queue_run h, ?_, ?_, ?_, ?_, horderly.stopped, fun hl outcome => exists_idle hl outcome⟩
  · intro done d later n heq hn
    obtain ⟨before, k, hbefore, hk, hverdict⟩ := verdict_run h done d later n heq hn
    rw [verdict, watcher_run hk] at hverdict
    exact ⟨before, k, hbefore, hk, hverdict⟩
  · intro hwaiting before d after heq hd
    have hdue : ¬ Due (.started :: deeds) := by rw [horderly.due, hwaiting]; simp
    have hrunning : ¬ Running (.started :: deeds) := by rw [horderly.running, hwaiting]; simp
    have hsplit : .started :: deeds = (.started :: before) ++ d :: after := by rw [heq]; rfl
    obtain ⟨first, second, rfl⟩ := List.append_of_mem (started_of_not_due hdue hsplit hd)
    have hstart : .started :: deeds = (.started :: before ++ d :: first) ++ .started :: second := by
      simp [heq]
    obtain ⟨outcome, hmem⟩ := finished_of_not_running hrunning hstart
    exact ⟨first, second, outcome, rfl, hmem⟩
  · intro before between after heq
    have halone := horderly.alone (before ++ .started :: between) after heq
    exact finished_of_not_running halone rfl
  · intro hphase outcome
    simp [step, hphase]

/-- A directory with one source, and a watcher for it. -/
def watchedDirectory : Loop :=
  start { extensions := ["rs"], directories := [⟨"/w"⟩] }
    { home := ["w"], root := [("w", .directory [("a.rs", .file (.text ""))])] } []

/-- Two builds, both without a result. One change comes while the first is on, another while the loop
settles, and then the queue is closed. -/
def changesMidBuild : List Action :=
  [.notify ⟨some .modified, [⟨"/w/a.rs"⟩, ⟨"/w/note.txt"⟩, ⟨"/w/target/b.rs"⟩]⟩,
    .notify ⟨none, [⟨"/w/a.rs"⟩]⟩, .finish (.failed (.plain "unreadable")), .take,
    .notify ⟨some .created, [⟨"/w/c.rs"⟩]⟩, .notify ⟨some .created, [⟨"/v/d.rs"⟩]⟩, .take, .take,
    .close, .hangUp, .finish .aborted]

/-- In this run three notices are taken, one of them not in scope, and a build has followed those
that are. -/
theorem run_loses_no_change_changesMidBuild : ∃ l deeds,
    watchedDirectory.run changesMidBuild = some (l, deeds) ∧
    l.phase = .waiting ∧ l.closed = true ∧
    deeds.filterMap Deed.notice? ++ l.queue =
      [⟨.modified, ⟨"/w/a.rs"⟩⟩, ⟨.created, ⟨"/w/c.rs"⟩⟩, ⟨.created, ⟨"/v/d.rs"⟩⟩] ∧
    ∃ before d after first second outcome, deeds = before ++ d :: after ∧ d.consumes = true ∧
      after = first ++ .started :: second ∧ .finished outcome ∈ second := by
  have hview : (watchedDirectory.run changesMidBuild).map
      (fun r => (r.1.phase, r.1.closed, r.2.any Deed.consumes)) = some (.waiting, true, true) := by
    decide +kernel
  obtain ⟨⟨l, deeds⟩, hrun, heq⟩ := Option.map_eq_some_iff.mp hview
  obtain ⟨hphase, hclosed, hany⟩ : l.phase = .waiting ∧ l.closed = true ∧
      deeds.any Deed.consumes = true := by
    simpa using heq
  obtain ⟨d, hmem, hd⟩ := List.any_eq_true.mp hany
  obtain ⟨before, after, hsplit⟩ := List.append_of_mem hmem
  obtain ⟨horder, _, hbuilt, _⟩ := run_loses_no_change _ _ _ changesMidBuild l deeds hrun
  obtain ⟨first, second, outcome, hafter, hfinished⟩ := hbuilt hphase before d after hsplit hd
  exact ⟨l, deeds, hrun, hphase, hclosed, horder.symm.trans (by decide +kernel), before, d, after,
    first, second, outcome, hsplit, hd, hafter, hfinished⟩

end Loop

/-! ## Batches -/

namespace Service

open Loop

/-- Something that is done with a service. -/
inductive Act where
  | edit (e : Edit)
  | settle (moment : Cache.Moment)

/-- Does things with a service, one after the other. The builds are returned. -/
def serve (s : Service) : List Act → Service × List JobRun
  | [] => (s, [])
  | .edit e :: acts => (s.edit e).1.serve acts
  | .settle moment :: acts =>
    let r := (s.settle moment).1.serve acts
    (r.1, (s.settle moment).2.toList ++ r.2)

theorem forward_eq (w : Watcher) (signals : List Signal) :
    w.forward signals =
      (signals.flatMap w.notificationsOf).flatMap fun n => n.notices w := by
  have hpasses (change : Volume.Change) (ps : List Path) :
      (ps.map (⟨change, ·⟩)).filter w.passes = (⟨some change, ps⟩ : Notification).notices w := by
    simp only [Notification.notices, List.filter_map, Function.comp_def, passes_eq]
  unfold Watcher.forward
  rw [List.filter_flatMap, List.flatMap_assoc]
  congr 1
  funext signal
  cases signal with
  | single change location =>
    simp only [Watcher.noticesOf, Watcher.notificationsOf]
    cases w.reportedPath? location with
    | none => rfl
    | some p => simpa using hpasses change [p]
  | moved source target =>
    simp only [Watcher.noticesOf, Watcher.notificationsOf]
    cases w.reportedPath? source with
    | none =>
      cases w.reportedPath? target with
      | none => rfl
      | some new => simpa using hpasses .modified [new]
    | some old =>
      cases w.reportedPath? target with
      | none => simpa using hpasses .modified [old]
      | some new =>
        simp only [List.flatMap_cons, List.flatMap_nil, ← hpasses]
        rw [List.append_nil, ← List.filter_append, ← List.filter_append]
        rfl

theorem run_notify (l : Loop) (hopen : l.closed = false) (ns : List Notification) :
    l.run (ns.map .notify) =
      some ({ l with queue := l.queue ++ ns.flatMap fun n => n.notices l.watcher }, []) := by
  induction ns generalizing l with
  | nil => simp [Machine.run]
  | cons n ns ih =>
    have hfirst : l.step (.notify n) =
        some ({ l with queue := l.queue ++ n.notices l.watcher }, []) := by
      rw [step, if_neg (by simp [hopen]), receive_eq]
    have hrest := ih { l with queue := l.queue ++ n.notices l.watcher } hopen
    simpa using Machine.run_cons hfirst hrest

/-- An edit changes the file tree and then notifies the loop. -/
theorem edit_run (s : Service) (e : Edit) : s.loop.run (.change (s.session.volume.edit e).volume ::
      ((s.session.volume.edit e).signals.flatMap s.watcher.notificationsOf).map .notify) =
    some ((s.edit e).1.loop, []) := by
  have hrest := run_notify { s.loop with volume := (s.session.volume.edit e).volume } rfl
    ((s.session.volume.edit e).signals.flatMap s.watcher.notificationsOf)
  simpa [loop, edit, forward_eq] using Machine.run_cons rfl hrest

/-- A batch is taken notice by notice. If anything in it is in scope, there is one build, and what it
does to the file tree is a change like others. -/
theorem settle_run (s : Service) (moment : Cache.Moment) : ∃ as ds,
    s.loop.run as = some ((s.settle moment).1.loop, ds) ∧
    ds.filterMap Deed.outcome? =
      (s.settle moment).2.toList.map fun r => Outcome.ofResult r.result := by
  obtain ⟨ds, hrun, hno⟩ := run_takes (l := s.loop) (Or.inl rfl)
  by_cases hdue : (s.watcher.inScope s.session.volume s.queue).isEmpty = true
  · have hsettle : s.settle moment = ({ s with queue := [] }, none) := by
      unfold settle
      exact if_pos hdue
    have hphase : (if (s.loop.watcher.inScope s.loop.volume s.loop.queue).isEmpty then s.loop.phase
        else .settling) = .waiting := if_pos hdue
    rw [hphase] at hrun
    rw [hsettle]
    exact ⟨_, ds, hrun, hno⟩
  · let r := s.job.run s.session moment
    have hsettle : s.settle moment = (({ s with queue := [] } : Service).rebuild moment |>.1, some r) := by
      unfold settle
      exact if_neg hdue
    have hphase : (if (s.loop.watcher.inScope s.loop.volume s.loop.queue).isEmpty then s.loop.phase
        else .settling) = .settling := if_neg hdue
    rw [hphase] at hrun
    rw [hsettle]
    -- the build may write to the file tree, which the loop sees as a change before it waits
    refine ⟨_ ++ [.expire, .change r.session.volume, .finish (.ofResult r.result)],
      ds ++ [.started, .finished (.ofResult r.result)], Machine.run_trans hrun rfl, ?_⟩
    rw [List.filterMap_append, hno]
    rfl

theorem serve_run_of_waiting (s : Service) (acts : List Act) : ∃ as ds,
    s.loop.run as = some ((s.serve acts).1.loop, ds) ∧
    ds.filterMap Deed.outcome? = (s.serve acts).2.map fun r => Outcome.ofResult r.result := by
  induction acts generalizing s with
  | nil => exact ⟨[], [], rfl, rfl⟩
  | cons act acts ih =>
    cases act with
    | edit e =>
      obtain ⟨as, ds, hrun, hbuilds⟩ := ih (s.edit e).1
      exact ⟨_, _, Machine.run_trans (edit_run s e) hrun, hbuilds⟩
    | settle moment =>
      obtain ⟨as, ds, hrun, hbuilds⟩ := settle_run s moment
      obtain ⟨as', ds', hrun', hbuilds'⟩ := ih (s.settle moment).1
      refine ⟨as ++ as', ds ++ ds', Machine.run_trans hrun hrun', ?_⟩
      rw [List.filterMap_append, hbuilds, hbuilds', ← List.map_append]
      rfl

/-- A service that has been started, with all that is done with it since, is a run of the loop: it
ends as the loop does, with the same builds. -/
theorem serve_run {job : Job} {session : Session} {moment : Cache.Moment} {s : Service} {r : JobRun}
    (h : (start job session moment).2 = .ok (s, r)) (acts : List Act) : ∃ as ds,
    (Loop.start s.watcher session.volume []).run as = some ((s.serve acts).1.loop, ds) ∧
    ds.filterMap Deed.outcome? =
      (r :: (s.serve acts).2).map fun r => Outcome.ofResult r.result := by
  have hfirst : (Loop.start s.watcher session.volume []).run
      [.change s.session.volume, .finish (.ofResult r.result)] =
        some (s.loop, [.finished (.ofResult r.result)]) := by
    unfold start at h
    split at h
    · cases h
    · next watcher hwatch =>
      cases h
      rfl
  obtain ⟨as, ds, hrun, hbuilds⟩ := serve_run_of_waiting s acts
  refine ⟨_, _, Machine.run_trans hfirst hrun, ?_⟩
  rw [List.filterMap_append, hbuilds]
  rfl

end Service

end CallGraph
