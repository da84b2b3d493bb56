import Vsched2.Admission

/-! Every trap is handled once.

    A trap is fresh, queued on a CPU, held by one handler or finished; `Told` ties each of these to what
    has happened to the trap so far. One step moves one trap at most, from one stage to the next. -/

namespace Vsched2

variable {cfg : Config}

/-- The number of the trap a handler works on. -/
def Stage.info : Stage → Option ℕ
  | .top => none
  | .taken item | .handle item | .handled item | .wake item _ | .exited item _ | .dealloc item => some item.info

/-- The number of the trap an event is about. -/
def Event.info : Event cfg → ℕ
  | .push_trap _ item => item.info
  | .pop_trap _ _ i | .handle _ i | .returned _ i _ | .push_task _ i _ | .dealloc_task _ i _ | .dealloc _ i => i

/-- Where a trap is, and what has happened to it. -/
structure TrapView (cfg : Config) where
  queued : Cpu cfg → List TrapItem
  held : TaskPtr → Option Stage
  history : List (Event cfg)

/-! ### The history of a trap -/

/-- How `handle` has left the trapped task. -/
def Returned (item : TrapItem) (state : Option TaskState) : Prop :=
  (item.task = none ∧ state = none) ∨ ∃ t, item.task = some t ∧ (state = some .blocked ∨ state = some .exited)

/-- What becomes of the trapped task: enqueued, or deallocated if it has exited. -/
def outcome (h : TaskPtr) (item : TrapItem) (state : Option TaskState) : List (Event cfg) :=
  match item.task, state with
  | some t, some .blocked => [.push_task h item.info t]
  | some t, some .exited => [.dealloc_task h item.info t]
  | _, _ => []

/-- What has happened to the trap `item` of CPU `c` when its handler `h` has come to a stage; the stage
    `top` is the end. `state` is how `handle` has left the task. -/
def story (c : Cpu cfg) (h : TaskPtr) (item : TrapItem) (state : Option TaskState) : Stage → List (Event cfg)
  | .taken _ => [.push_trap c item, .pop_trap c h item.info]
  | .handle _ => [.push_trap c item, .pop_trap c h item.info, .handle h item.info]
  | .handled _ | .wake _ _ | .exited _ _ =>
    [.push_trap c item, .pop_trap c h item.info, .handle h item.info, .returned h item.info state]
  | .dealloc _ =>
    [.push_trap c item, .pop_trap c h item.info, .handle h item.info, .returned h item.info state] ++
      outcome h item state
  | .top =>
    [.push_trap c item, .pop_trap c h item.info, .handle h item.info, .returned h item.info state] ++
      outcome h item state ++ [.dealloc h item.info]

/-- The handler of `item` stands at a stage, and `handle` has left the task as `state` says. -/
def Stage.Of (item : TrapItem) (state : Option TaskState) : Stage → Prop
  | .taken item' | .handle item' => item' = item
  | .handled item' | .dealloc item' => item' = item ∧ Returned item state
  | .wake item' t => item' = item ∧ item.task = some t ∧ state = some .blocked
  | .exited item' t => item' = item ∧ item.task = some t ∧ state = some .exited
  | .top => Returned item state

/-- What can be said of the trap `i`. -/
inductive Told (i : ℕ) : TrapView cfg → Prop where
  | fresh : Told i ⟨fun _ => [], fun _ => none, []⟩
  | queued (c item) (hi : item.info = i) :
      Told i ⟨Function.update (fun _ => []) c [item], fun _ => none, [.push_trap c item]⟩
  | held (c h item state stage) (hi : item.info = i) (hst : stage ≠ .top) (hof : stage.Of item state) :
      Told i ⟨fun _ => [], Function.update (fun _ => none) h (some stage), story c h item state stage⟩
  | finished (c h item state) (hi : item.info = i) (hof : Stage.Of item state .top) :
      Told i ⟨fun _ => [], fun _ => none, story c h item state .top⟩

namespace Told

variable {i : ℕ} {v : TrapView cfg}

theorem of_queued {c : Cpu cfg} {item : TrapItem} (hT : Told i v) (hc : item ∈ v.queued c) :
    v = ⟨Function.update (fun _ => []) c [item], fun _ => none, [.push_trap c item]⟩ := by
  cases hT with
  | queued d item' hi =>
    by_cases hcd : c = d
    · subst hcd
      obtain rfl : item = item' := by simpa using hc
      rfl
    · simp [hcd] at hc
  | _ => simp at hc

theorem of_held {h : TaskPtr} {stage : Stage} (hT : Told i v) (hh : v.held h = some stage) :
    ∃ c item state, item.info = i ∧ stage ≠ .top ∧ stage.Of item state ∧
      v = ⟨fun _ => [], Function.update (fun _ => none) h (some stage), story c h item state stage⟩ := by
  cases hT with
  | held c g item state stage' hi hst hof =>
    by_cases hgh : h = g
    · subst hgh
      simp only [Function.update_self, Option.some.injEq] at hh
      subst hh
      exact ⟨c, item, state, hi, hst, hof, rfl⟩
    · simp [hgh] at hh
  | _ => simp at hh

end Told

namespace Machine

variable {m m' : Machine cfg} {a : Act cfg} {c : Cpu cfg} {t h : TaskPtr} {i : ℕ}

def trap_view (m : Machine cfg) (i : ℕ) : TrapView cfg where
  queued := fun c => (m.traps c).filter fun item => item.info = i
  held := fun h => (m.stage h).filter fun st => st.info = some i
  history := m.log.filter fun e => e.info = i

/-! ### What a step does to traps -/

/-- One access of `trap_handler` after it has taken a trap: from stage to stage, with its events. -/
inductive Advance (m : Machine cfg) (h : TaskPtr) : Stage → List (Event cfg) → Stage → Prop where
  | handle (item) : Advance m h (.taken item) [.handle h item.info] (.handle item)
  | returned (item) : Advance m h (.handle item)
      [.returned h item.info (item.task.map fun t => (m.tasks t).state)] (.handled item)
  | no_task (item) (hitem : item.task = none) : Advance m h (.handled item) [] (.dealloc item)
  | blocked (item t) (hitem : item.task = some t) (hst : (m.tasks t).state = .blocked) :
      Advance m h (.handled item) [] (.wake item t)
  | exited (item t) (hitem : item.task = some t) (hst : (m.tasks t).state = .exited) :
      Advance m h (.handled item) [] (.exited item t)
  | push_task (item t) : Advance m h (.wake item t) [.push_task h item.info t] (.dealloc item)
  | dealloc_task (item t) : Advance m h (.exited item t) [.dealloc_task h item.info t] (.dealloc item)
  | dealloc (item) : Advance m h (.dealloc item) [.dealloc h item.info] .top

/-- What a step does to the traps. -/
inductive TrapEffect (m : Machine cfg) (a : Act cfg) (m' : Machine cfg) : Prop where
  | none (ht : m'.traps = m.traps) (hn : m'.next_info = m.next_info) (hl : m'.log = m.log)
      (hst : ∀ h st, st ≠ .top → (m'.stage h = some st ↔ m.stage h = some st))
  | push (c task) (ht : m'.traps = Function.update m.traps c (m.traps c ++ [⟨m.next_info, task⟩]))
      (hn : m'.next_info = m.next_info + 1) (hl : m'.log = m.log ++ [.push_trap c ⟨m.next_info, task⟩])
      (hst : m'.stage = m.stage) (who : ∀ t, task = some t → m.pc c = .sync_push ∧ t = m.current_task c)
  | pop (c item rest) (hpc : m.pc c = .run) (h₀ : m.stage (m.current_task c) = some .top)
      (hq : m.traps c = item :: rest) (ht : m'.traps = Function.update m.traps c rest)
      (hn : m'.next_info = m.next_info) (hl : m'.log = m.log ++ [.pop_trap c (m.current_task c) item.info])
      (hst : m'.stage = Function.update m.stage (m.current_task c) (some (.taken item)))
  | advance (c st es st') (hpc : m.pc c = .run) (h₀ : m.stage (m.current_task c) = some st)
      (hm : m' = m.handler_next c st) (ht : m'.traps = m.traps) (hn : m'.next_info = m.next_info)
      (hl : m'.log = m.log ++ es) (hst : m'.stage = Function.update m.stage (m.current_task c) (some st'))
      (hadv : Advance m (m.current_task c) st es st')

theorem handler_next_trap_effect {st : Stage} (hpc : m.pc c = .run) (h₀ : m.stage (m.current_task c) = some st) :
    TrapEffect m a (m.handler_next c st) := by
  cases st with
  | top =>
    cases hq : m.traps c with
    | nil =>
      simp only [handler_next, hq]
      exact .none rfl rfl rfl fun _ _ _ => Iff.rfl
    | cons item rest =>
      simp only [handler_next, hq]
      exact .pop c item rest hpc h₀ hq rfl rfl rfl rfl
  | taken item => exact .advance c _ _ _ hpc h₀ rfl rfl rfl rfl rfl (.handle item)
  | handle item => exact .advance c _ _ _ hpc h₀ rfl rfl rfl rfl rfl (.returned item)
  | handled item =>
    cases hitem : item.task with
    | none =>
      refine .advance c _ [] _ hpc h₀ rfl ?_ ?_ ?_ ?_ (.no_task item hitem) <;> simp only [handler_next, hitem]
      · rfl
      · rfl
      · rw [List.append_nil]; rfl
      · rfl
    | some t =>
      cases hst : (m.tasks t).state with
      | blocked =>
        refine .advance c _ [] _ hpc h₀ rfl ?_ ?_ ?_ ?_ (.blocked item t hitem hst) <;>
          simp only [handler_next, hitem, hst]
        · rfl
        · rfl
        · rw [List.append_nil]; rfl
        · rfl
      | exited =>
        refine .advance c _ [] _ hpc h₀ rfl ?_ ?_ ?_ ?_ (.exited item t hitem hst) <;>
          simp only [handler_next, hitem, hst]
        · rfl
        · rfl
        · rw [List.append_nil]; rfl
        · rfl
      | ready | running | blocking =>
        simp only [handler_next, hitem, hst]
        exact .none rfl rfl rfl fun _ _ _ => Iff.rfl
  | wake item t =>
    cases hp : m.push_task t with
    | none =>
      simp only [handler_next, hp]
      exact .none rfl rfl rfl fun _ _ _ => Iff.rfl
    | some m₁ =>
      obtain ⟨l, -, -, rfl⟩ := push_task_eq_some hp
      refine .advance c _ _ _ hpc h₀ rfl ?_ ?_ ?_ ?_ (.push_task item t) <;> simp only [handler_next, hp] <;> rfl
  | exited item t => exact .advance c _ _ _ hpc h₀ rfl rfl rfl rfl rfl (.dealloc_task item t)
  | dealloc item => exact .advance c _ _ _ hpc h₀ rfl rfl rfl rfl rfl (.dealloc item)

theorem step_trap_effect (hI : Inv m) (hs : m.step a = some m') : TrapEffect m a m' := by
  -- a new task has no stage before, and at most the stage `top` after
  have hcreate : ∀ t task stage, m.known t = false → (∀ st, stage = some st → st = .top) → ∀ h st, st ≠ .top →
      ((m.create t task stage).stage h = some st ↔ m.stage h = some st) := by
    intro t task stage hk hstage h st hst
    rcases eq_or_ne h t with rfl | hne
    · have hno : m.stage h = none := by
        by_contra hsome
        simp [hI.staged h hsome] at hk
      simp only [create, Function.update_self, hno, reduceCtorEq, iff_false]
      exact fun heq => hst (hstage st heq)
    · simp [create, hne]
  cases step_effect hs with
  | enqueue t m₁ _ hp hq =>
    obtain ⟨l, -, -, rfl⟩ := push_task_eq_some hp
    exact .none hq.traps hq.next_info hq.log fun h st _ => by rw [hq.stage]; rfl
  | push_trap c task m₁ hp hq who =>
    obtain rfl := push_trap_eq_some hp
    exact .push c task hq.traps hq.next_info hq.log hq.stage who
  | arrive t task m₁ _ hk _ hp hm =>
    obtain ⟨l, -, -, rfl⟩ := push_task_eq_some hp
    rw [hm]
    exact .none rfl rfl rfl (hcreate t task none hk (by simp))
  | new_handler g task hk _ hq =>
    exact .none hq.traps hq.next_info hq.log fun h st hst => by
      rw [hq.stage]
      exact hcreate g task (some .top) hk (by simp) h st hst
  | handler c st ha hpc h₀ hm => exact hm ▸ handler_next_trap_effect hpc h₀
  | dealloc c _ hm =>
    rw [hm]
    exact .none rfl rfl rfl fun _ _ _ => Iff.rfl
  | quiet hq | take_idle c pid g rest _ _ hq | push_idle c _ hq | set_pid c g pid _ hq =>
    exact .none hq.traps hq.next_info hq.log fun h st _ => by rw [hq.stage]

/-! ### What a step does to the view of a trap -/

theorem trap_view_none (ht : m'.traps = m.traps) (hl : m'.log = m.log)
    (hst : ∀ h st, st ≠ .top → (m'.stage h = some st ↔ m.stage h = some st)) (i : ℕ) :
    m'.trap_view i = m.trap_view i := by
  have hheld : ∀ h, ((m'.stage h).filter fun st => st.info = some i) =
      (m.stage h).filter fun st => st.info = some i := by
    intro h
    ext st
    simp only [Option.filter_eq_some_iff, decide_eq_true_eq]
    refine and_congr_left fun hinfo => hst h st ?_
    rintro rfl
    simp [Stage.info] at hinfo
  simp only [trap_view, ht, hl, hheld]

/-- A handler moves to the stage `st` while the traps become `traps'`. -/
theorem trap_view_stage {st : Stage} {es : List (Event cfg)} (hl : m'.log = m.log ++ es)
    (hst : m'.stage = Function.update m.stage h (some st)) (i : ℕ) :
    m'.trap_view i = ⟨fun c => (m'.traps c).filter fun item => item.info = i,
      Function.update (m.trap_view i).held h (if st.info = some i then some st else none),
      (m.trap_view i).history ++ es.filter fun e => e.info = i⟩ := by
  have hheld : (fun g => (m'.stage g).filter fun st => st.info = some i) =
      Function.update (m.trap_view i).held h (if st.info = some i then some st else none) := by
    funext g
    rcases eq_or_ne g h with rfl | hg
    · simp [hst, Option.filter]
    · simp [hst, hg, trap_view]
  simp only [trap_view, hl, List.filter_append] at hheld ⊢
  rw [hheld]

/-! ### One step -/

theorem Advance.info {st st' : Stage} {es : List (Event cfg)} (hadv : Advance m h st es st') :
    ∃ item : TrapItem, st.info = some item.info ∧ (∀ e ∈ es, e.info = item.info) ∧
      (st' = .top ∨ st'.info = some item.info) := by
  cases hadv <;> refine ⟨_, rfl, by simp [Event.info], ?_⟩ <;> simp [Stage.info]

/-- The story goes on with the events of the access. -/
theorem Advance.story {st st' : Stage} {es : List (Event cfg)} {item : TrapItem} {state : Option TaskState}
    (hadv : Advance m h st es st') (hof : st.Of item state)
    (hret : st = .handle item → Returned item (item.task.map fun t => (m.tasks t).state))
    (hstate : st = .handled item → state = item.task.map fun t => (m.tasks t).state) :
    ∃ state', st'.Of item state' ∧ Vsched2.story c h item state' st' = Vsched2.story c h item state st ++ es := by
  cases hadv with
  | handle item' =>
    obtain rfl := hof
    exact ⟨state, rfl, rfl⟩
  | returned item' =>
    obtain rfl := hof
    exact ⟨_, ⟨rfl, hret rfl⟩, rfl⟩
  | no_task item' hitem =>
    obtain ⟨rfl, hr⟩ := hof
    refine ⟨state, ⟨rfl, hr⟩, ?_⟩
    simp [Vsched2.story, outcome, hitem]
  | blocked item' t hitem hst =>
    obtain ⟨rfl, hr⟩ := hof
    refine ⟨state, ⟨rfl, hitem, ?_⟩, by simp [Vsched2.story]⟩
    rw [hstate rfl, hitem, Option.map_some, hst]
  | exited item' t hitem hst =>
    obtain ⟨rfl, hr⟩ := hof
    refine ⟨state, ⟨rfl, hitem, ?_⟩, by simp [Vsched2.story]⟩
    rw [hstate rfl, hitem, Option.map_some, hst]
  | push_task item' t =>
    obtain ⟨rfl, hitem, rfl⟩ := hof
    refine ⟨some .blocked, ⟨rfl, Or.inr ⟨t, hitem, Or.inl rfl⟩⟩, ?_⟩
    simp [Vsched2.story, outcome, hitem]
  | dealloc_task item' t =>
    obtain ⟨rfl, hitem, rfl⟩ := hof
    refine ⟨some .exited, ⟨rfl, Or.inr ⟨t, hitem, Or.inr rfl⟩⟩, ?_⟩
    simp [Vsched2.story, outcome, hitem]
  | dealloc item' =>
    obtain ⟨rfl, hr⟩ := hof
    exact ⟨state, hr, rfl⟩

/-- Every trap has its story; a number not given yet has none. `handle` has returned what the task
    still is, and what has been deallocated stays away. -/
structure Traced (m : Machine cfg) : Prop where
  inv : Inv m
  told : ∀ i, Told i (m.trap_view i)
  fresh : ∀ i, m.next_info ≤ i → m.trap_view i = ⟨fun _ => [], fun _ => none, []⟩
  settled : ∀ h item, m.stage h = some (.handled item) →
    .returned h item.info (item.task.map fun t => (m.tasks t).state) ∈ m.log
  gone : ∀ h i t, .dealloc_task h i t ∈ m.log → ∃ st, m.view t = .off true st false

theorem trap_view_held {st : Stage} (h₀ : m.stage h = some st) :
    (m.trap_view i).held h = if st.info = some i then some st else none := by
  simp [trap_view, h₀, Option.filter]

/-- A step that concerns the trap `j` leaves the others alone. -/
theorem trap_view_stage_of_ne {st st' : Stage} {es : List (Event cfg)} {j : ℕ} (h₀ : m.stage h = some st)
    (hst₀ : st = .top ∨ st.info = some j) (hst₁ : st' = .top ∨ st'.info = some j) (hes : ∀ e ∈ es, e.info = j)
    (hl : m'.log = m.log ++ es) (hst : m'.stage = Function.update m.stage h (some st')) (hij : i ≠ j)
    (ht : ∀ c, ((m'.traps c).filter fun item => item.info = i) = (m.traps c).filter fun item => item.info = i) :
    m'.trap_view i = m.trap_view i := by
  have hno : ∀ s : Stage, s = .top ∨ s.info = some j → s.info ≠ some i := by
    rintro s (rfl | hs) hi
    · simp [Stage.info] at hi
    · exact hij (Option.some.inj (hi.symm.trans hs))
  have hnil : es.filter (fun e => e.info = i) = [] := by
    refine List.filter_eq_nil_iff.mpr fun e he => ?_
    simpa [hes e he] using hij.symm
  have hheld : (m.trap_view i).held h = none := (trap_view_held h₀).trans (if_neg (hno st hst₀))
  rw [trap_view_stage hl hst, if_neg (hno st' hst₁), hnil, List.append_nil, ← hheld, Function.update_eq_self]
  simp only [ht]
  rfl

/-- `push_trap` gives the trap its number. -/
theorem push_told {task : Option TaskPtr} (hT : Traced m)
    (ht : m'.traps = Function.update m.traps c (m.traps c ++ [⟨m.next_info, task⟩]))
    (hl : m'.log = m.log ++ [.push_trap c ⟨m.next_info, task⟩]) (hst : m'.stage = m.stage) :
    Told m.next_info (m'.trap_view m.next_info) ∧ ∀ i, i ≠ m.next_info → m'.trap_view i = m.trap_view i := by
  have hfresh := hT.fresh m.next_info le_rfl
  constructor
  · have hv : m'.trap_view m.next_info =
        ⟨Function.update (fun _ => []) c [⟨m.next_info, task⟩], fun _ => none, [.push_trap c ⟨m.next_info, task⟩]⟩ := by
      have hq := congrArg TrapView.queued hfresh
      have hh := congrArg TrapView.held hfresh
      have hl' := congrArg TrapView.history hfresh
      simp only [trap_view] at hq hh hl' ⊢
      rw [hl, hst, List.filter_append, hl', hh]
      simp only [TrapView.mk.injEq, true_and]
      refine ⟨?_, by simp [Event.info]⟩
      funext d
      rcases eq_or_ne d c with rfl | hd
      · simp [ht, congrFun hq d]
      · simp [ht, hd, congrFun hq d]
    rw [hv]
    exact .queued c _ rfl
  · intro i hi
    simp only [trap_view, hl, hst, List.filter_append, TrapView.mk.injEq, true_and]
    refine ⟨?_, by simp [Event.info, hi.symm]⟩
    funext d
    rcases eq_or_ne d c with rfl | hd
    · simp [ht, hi.symm]
    · simp [ht, hd]

/-- A handler takes the first trap of its CPU. -/
theorem pop_told {item : TrapItem} {rest : List TrapItem} (hT : Traced m) (h₀ : m.stage h = some .top)
    (hq : m.traps c = item :: rest) (ht : m'.traps = Function.update m.traps c rest)
    (hl : m'.log = m.log ++ [.pop_trap c h item.info])
    (hst : m'.stage = Function.update m.stage h (some (.taken item))) :
    Told item.info (m'.trap_view item.info) ∧ ∀ i, i ≠ item.info → m'.trap_view i = m.trap_view i := by
  constructor
  · have hmem : item ∈ (m.trap_view item.info).queued c := by simp [trap_view, hq]
    have hv := (hT.told item.info).of_queued hmem
    have hqueue := congrArg TrapView.queued hv
    have hnil : ∀ d, ((m'.traps d).filter fun it => it.info = item.info) = [] := by
      intro d
      have hd := congrFun hqueue d
      rcases eq_or_ne d c with rfl | hd'
      · simpa [trap_view, hq, ht] using hd
      · simpa [trap_view, hd', ht] using hd
    have hpop : [Event.pop_trap c h item.info].filter (fun e => e.info = item.info) = [.pop_trap c h item.info] := by
      simp [Event.info]
    rw [trap_view_stage hl hst, hv, hpop]
    simp only [hnil, Stage.info, if_true]
    exact .held c h item none (.taken item) rfl (by simp) rfl
  · intro i hi
    refine trap_view_stage_of_ne h₀ (Or.inl rfl) (Or.inr rfl) (by simp [Event.info]) hl hst hi fun d => ?_
    rcases eq_or_ne d c with rfl | hd
    · simp [ht, hq, hi.symm]
    · simp [ht, hd]

/-- A handler goes on with its trap. -/
theorem advance_told {st st' : Stage} {es : List (Event cfg)} (hT : Traced m) (h₀ : m.stage h = some st)
    (ht : m'.traps = m.traps) (hl : m'.log = m.log ++ es) (hst : m'.stage = Function.update m.stage h (some st'))
    (hadv : Advance m h st es st') :
    ∃ j, st.info = some j ∧ Told j (m'.trap_view j) ∧ ∀ i, i ≠ j → m'.trap_view i = m.trap_view i := by
  obtain ⟨item, hinfo, hes, hst'⟩ := hadv.info
  refine ⟨item.info, hinfo, ?_, fun i hi =>
    trap_view_stage_of_ne h₀ (Or.inr hinfo) hst' hes hl hst hi fun d => by rw [ht]⟩
  obtain ⟨c, item₀, state, hi, hne, hof, hv⟩ := (hT.told item.info).of_held ((trap_view_held h₀).trans (if_pos hinfo))
  have hret : st = .handle item₀ → Returned item₀ (item₀.task.map fun t => (m.tasks t).state) := by
    rintro rfl
    cases htask : item₀.task with
    | none => exact Or.inl ⟨htask, rfl⟩
    | some t =>
      refine Or.inr ⟨t, htask, ?_⟩
      rcases (hT.inv.hand_view h₀ (t := t) htask).1 with hst | hst <;> simp [hst]
  have hstate : st = .handled item₀ → state = item₀.task.map fun t => (m.tasks t).state := by
    rintro rfl
    have hmem : .returned h item₀.info (item₀.task.map fun t => (m.tasks t).state) ∈ (m.trap_view item.info).history :=
      List.mem_filter.mpr ⟨hT.settled h item₀ h₀, by simp [Event.info, hi]⟩
    rw [hv] at hmem
    simpa [story, eq_comm] using hmem
  obtain ⟨state', hof', hstory⟩ := hadv.story (c := c) hof hret hstate
  have hall : es.filter (fun e => e.info = item.info) = es :=
    List.filter_eq_self.mpr fun e he => decide_eq_true (hes e he)
  rw [trap_view_stage hl hst, hall, ht]
  have hqueue : (fun c => (m.traps c).filter fun it => it.info = item.info) = fun _ => [] := congrArg TrapView.queued hv
  rw [hqueue, hv, ← hstory]
  rcases hst' with rfl | hinfo'
  · -- the handler is through with it
    have hnone : Function.update (Function.update (fun _ => none) h (some st)) h none = fun _ : TaskPtr => none := by
      simp
    simp only [Stage.info, reduceCtorEq, if_false, hnone]
    exact .finished c h item₀ state' hi hof'
  · have hne' : st' ≠ .top := by
      rintro rfl
      simp [Stage.info] at hinfo'
    simp only [if_pos hinfo', Function.update_idem]
    exact .held c h item₀ state' st' hi hne' hof'

/-- Only `push_trap` gives out a number, and a trap in progress has one. -/
theorem Traced.info_lt {j : ℕ} (hT : Traced m) (hv : m.trap_view j ≠ ⟨fun _ => [], fun _ => none, []⟩) :
    j < m.next_info := by
  by_contra hle
  exact hv (hT.fresh j (Nat.le_of_not_lt hle))

theorem step_told (hT : Traced m) (he : TrapEffect m a m') :
    (∀ i, Told i (m'.trap_view i)) ∧ ∀ i, m'.next_info ≤ i → m'.trap_view i = ⟨fun _ => [], fun _ => none, []⟩ := by
  have hone : ∀ j, Told j (m'.trap_view j) → (∀ i, i ≠ j → m'.trap_view i = m.trap_view i) → j < m'.next_info →
      m.next_info ≤ m'.next_info → (∀ i, Told i (m'.trap_view i)) ∧
        ∀ i, m'.next_info ≤ i → m'.trap_view i = ⟨fun _ => [], fun _ => none, []⟩ := by
    intro j hj hother hlt hle
    constructor
    · intro i
      rcases eq_or_ne i j with rfl | hij
      · exact hj
      · rw [hother i hij]
        exact hT.told i
    · intro i hi
      rw [hother i (by omega)]
      exact hT.fresh i (by omega)
  cases he with
  | none ht hn hl hst =>
    have hsame := trap_view_none ht hl hst
    exact ⟨fun i => by rw [hsame i]; exact hT.told i, fun i hi => by rw [hsame i]; exact hT.fresh i (by omega)⟩
  | push c task ht hn hl hst =>
    obtain ⟨hj, hother⟩ := push_told hT ht hl hst
    exact hone _ hj hother (by omega) (by omega)
  | pop c item rest hpc h₀ hq ht hn hl hst =>
    obtain ⟨hj, hother⟩ := pop_told hT h₀ hq ht hl hst
    have hlt : item.info < m.next_info := by
      refine hT.info_lt fun hv => ?_
      have hqueue := congrFun (congrArg TrapView.queued hv) c
      simp [trap_view, hq] at hqueue
    exact hone _ hj hother (by omega) (by omega)
  | advance c st es st' hpc h₀ hm ht hn hl hst hadv =>
    obtain ⟨j, hinfo, hj, hother⟩ := advance_told hT h₀ ht hl hst hadv
    have hlt : j < m.next_info := by
      refine hT.info_lt fun hv => ?_
      have hheld := congrFun (congrArg TrapView.held hv) (m.current_task c)
      rw [trap_view_held h₀, if_pos hinfo] at hheld
      cases hheld
    exact hone _ hj hother (by omega) (by omega)

/-- A trapped task keeps its state until its handler has looked at it. -/
theorem handled_kept {item : TrapItem} (hI : Inv m) (hs : m.step a = some m') (h₀ : m.stage h = some (.handled item))
    (hkeep : m'.stage h = m.stage h) (ht : item.task = some t) : (m'.tasks t).state = (m.tasks t).state := by
  have hv := (hI.hand_view h₀ (t := t) ht).2
  have hhand : (m.view t).hand h = some (.handled item) := (view_hand h₀).trans (if_pos ht)
  rcases (step_follows hI hs t).kept with heq | hfree | ⟨g, st, hg, hcause⟩
  · exact congrArg View.state heq
  · simp [hfree.2 h] at hhand
  · have hgh : g = h := by
      by_contra hne
      simp [hv, hne] at hg
    subst hgh
    rcases hcause with hne | ⟨it, rfl⟩
    · exact absurd hkeep hne
    · simp [hhand] at hg

theorem step_settled {item : TrapItem} (hT : Traced m) (hs : m.step a = some m') (he : TrapEffect m a m')
    (h₀ : m'.stage h = some (.handled item)) :
    .returned h item.info (item.task.map fun t => (m'.tasks t).state) ∈ m'.log := by
  have hold : m.stage h = some (.handled item) → (∀ e ∈ m.log, e ∈ m'.log) →
      .returned h item.info (item.task.map fun t => (m'.tasks t).state) ∈ m'.log := by
    intro h₁ hlog
    have hsame : (item.task.map fun t => (m'.tasks t).state) = item.task.map fun t => (m.tasks t).state := by
      cases ht : item.task with
      | none => rfl
      | some t => simp [handled_kept hT.inv hs h₁ (h₀.trans h₁.symm) ht]
    rw [hsame]
    exact hlog _ (hT.settled h item h₁)
  cases he with
  | none ht hn hl hst => exact hold ((hst h _ (by simp)).mp h₀) fun e he => hl ▸ he
  | push c task ht hn hl hst => exact hold (hst ▸ h₀) fun e he => hl ▸ List.mem_append_left _ he
  | pop c item' rest hpc h₁ hq ht hn hl hst =>
    have hne : h ≠ m.current_task c := by
      rintro rfl
      simp [hst] at h₀
    exact hold (by simpa [hst, hne] using h₀) fun e he => hl ▸ List.mem_append_left _ he
  | advance c st es st' hpc h₁ hm ht hn hl hst hadv =>
    rcases eq_or_ne h (m.current_task c) with rfl | hne
    · -- the handler has just come back from `handle`
      obtain rfl : st' = .handled item := by simpa [hst] using h₀
      cases hadv with
      | returned item =>
        rw [hl, hm]
        exact List.mem_append_right _ (List.mem_singleton_self _)
    · exact hold (by simpa [hst, hne] using h₀) fun e he => hl ▸ List.mem_append_left _ he

theorem step_gone (hT : Traced m) (hs : m.step a = some m') (he : TrapEffect m a m')
    (hmem : .dealloc_task h i t ∈ m'.log) : ∃ st, m'.view t = .off true st false := by
  have hold : .dealloc_task h i t ∈ m.log → ∃ st, m'.view t = .off true st false := by
    intro hmem
    obtain ⟨st, hv⟩ := hT.gone h i t hmem
    exact ⟨st, (step_follows hT.inv hs t).nowhere hv⟩
  cases he with
  | none ht hn hl hst => exact hold (hl ▸ hmem)
  | push c task ht hn hl hst => exact hold (by simpa [hl] using hmem)
  | pop c item rest hpc h₁ hq ht hn hl hst => exact hold (by simpa [hl] using hmem)
  | advance c st es st' hpc h₁ hm ht hn hl hst hadv =>
    rw [hl] at hmem
    rcases List.mem_append.mp hmem with hmem | hmem
    · exact hold hmem
    · cases hadv with
      | dealloc_task item t' =>
        simp only [List.mem_singleton, Event.dealloc_task.injEq] at hmem
        obtain ⟨-, -, rfl⟩ := hmem
        exact ⟨_, hm ▸ exited_nowhere hT.inv h₁⟩
      | _ => simp at hmem

theorem step_traced (hT : Traced m) (hs : m.step a = some m') : Traced m' where
  inv := step_inv hT.inv hs
  told := (step_told hT (step_trap_effect hT.inv hs)).1
  fresh := (step_told hT (step_trap_effect hT.inv hs)).2
  settled := fun _ _ h₀ => step_settled hT hs (step_trap_effect hT.inv hs) h₀
  gone := fun _ _ _ hmem => step_gone hT hs (step_trap_effect hT.inv hs) hmem

/-! ### The order of the traps of a CPU -/

/-- The traps pushed on CPU `c`, in this order. -/
def pushed (c : Cpu cfg) (log : List (Event cfg)) : List ℕ :=
  log.filterMap fun
    | .push_trap d item => if d = c then some item.info else none
    | _ => none

/-- The traps removed on CPU `c`, in this order. -/
def popped (c : Cpu cfg) (log : List (Event cfg)) : List ℕ :=
  log.filterMap fun
    | .pop_trap d _ i => if d = c then some i else none
    | _ => none

/-- The queue of a CPU is what has been pushed and not removed, so it is removed in order. -/
def InOrder (m : Machine cfg) : Prop :=
  ∀ c, pushed c m.log = popped c m.log ++ (m.traps c).map TrapItem.info

theorem Advance.no_queue {st st' : Stage} {es : List (Event cfg)} (hadv : Advance m h st es st') :
    pushed c es = [] ∧ popped c es = [] := by
  cases hadv <;> exact ⟨rfl, rfl⟩

theorem step_in_order (hO : InOrder m) (he : TrapEffect m a m') : InOrder m' := by
  intro d
  have hd := hO d
  simp only [pushed, popped] at hd
  cases he with
  | none ht hn hl hst => simpa only [ht, hl] using hO d
  | push c task ht hn hl hst =>
    rcases eq_or_ne d c with rfl | hdc
    · simp [pushed, popped, hl, ht, hd]
    · simp [pushed, popped, hl, ht, hd, hdc, hdc.symm]
  | pop c item rest hpc h₀ hq ht hn hl hst =>
    rcases eq_or_ne d c with rfl | hdc
    · simp [pushed, popped, hl, ht, hd, hq]
    · simp [pushed, popped, hl, ht, hd, hdc, hdc.symm]
  | advance c st es st' hpc h₀ hm ht hn hl hst hadv =>
    obtain ⟨h₁, h₂⟩ := hadv.no_queue (c := d)
    simp only [pushed, popped] at h₁ h₂
    simp only [pushed, popped, hl, ht, List.filterMap_append, h₁, h₂, List.append_nil, hd]

/-- Traps come to the end of a queue, and only a handler at the top of its loop takes the first trap of
    the CPU it runs on. -/
theorem step_queue (he : TrapEffect m a m') (c : Cpu cfg) :
    m'.traps c = m.traps c ∨ (∃ item, m'.traps c = m.traps c ++ [item]) ∨
    m.pc c = .run ∧ m.stage (m.current_task c) = some .top ∧
      ∃ item, m.traps c = item :: m'.traps c ∧ m'.stage (m.current_task c) = some (.taken item) := by
  cases he with
  | none ht hn hl hst => exact Or.inl (by rw [ht])
  | push d task ht hn hl hst =>
    rcases eq_or_ne c d with rfl | hcd
    · exact Or.inr (Or.inl ⟨_, by rw [ht, Function.update_self]⟩)
    · exact Or.inl (by rw [ht, Function.update_of_ne hcd])
  | pop d item rest hpc h₀ hq ht hn hl hst =>
    rcases eq_or_ne c d with rfl | hcd
    · refine Or.inr (Or.inr ⟨hpc, h₀, item, ?_, by rw [hst, Function.update_self]⟩)
      rw [ht, Function.update_self, hq]
    · exact Or.inl (by rw [ht, Function.update_of_ne hcd])
  | advance d st es st' hpc h₀ hm ht hn hl hst hadv => exact Or.inl (by rw [ht])

/-! ### The trapped task -/

theorem held_not_ready {st : Stage} (hI : Inv m) (h₀ : m.stage h = some st) (ht : st.holds = some t) (p : Pid cfg)
    (l : Level cfg) : t ∉ m.ready p l := by
  intro hmem
  have hcount : (m.ready p l).count t = 0 :=
    congrFun (congrFun (congrArg View.ready (hI.hand_view h₀ ht).2) p) l
  exact List.count_eq_zero.mp hcount hmem

/-- The task a handler enqueues is `Ready`, was in no ready queue and is in one afterwards. -/
theorem step_enqueued (hI : Inv m) (he : TrapEffect m a m') (hnew : .push_task h i t ∈ m'.log)
    (hold : .push_task h i t ∉ m.log) :
    (m'.tasks t).state = .ready ∧ (∀ p l, t ∉ m.ready p l) ∧ ∃ l, t ∈ m'.ready (m.home t) l := by
  cases he with
  | none ht hn hl hst => exact absurd (hl ▸ hnew) hold
  | push c task ht hn hl hst => exact absurd (by simpa [hl] using hnew) hold
  | pop c item rest hpc h₁ hq ht hn hl hst => exact absurd (by simpa [hl] using hnew) hold
  | advance c st es st' hpc h₁ hm ht hn hl hst hadv =>
    rw [hl] at hnew
    have hnew := (List.mem_append.mp hnew).resolve_left hold
    cases hadv with
    | push_task item t' =>
      simp only [List.mem_singleton, Event.push_task.injEq] at hnew
      obtain ⟨-, -, rfl⟩ := hnew
      cases hp : m.push_task t with
      | none =>
        simp only [hm, handler_next, hp] at hl
        simp [set_pc] at hl
      | some m₁ =>
        obtain ⟨l, -, -, rfl⟩ := push_task_eq_some hp
        simp only [hm, handler_next, hp]
        exact ⟨(hI.hand_view h₁ (t := t) rfl).1, held_not_ready hI h₁ rfl, l, by simp [set_stage, emit, set_ready]⟩
    | _ => simp at hnew

theorem story_push {d : Cpu cfg} {item item' : TrapItem} {state : Option TaskState} {st : Stage}
    (hmem : .push_trap d item' ∈ story c h item state st) : item' = item := by
  cases st <;> simp only [story, outcome] at hmem
  case taken | handle | handled | wake | exited => simp at hmem; exact hmem.2
  all_goals
    split at hmem <;> simp at hmem <;> exact hmem.2

theorem story_returned {g : TaskPtr} {item : TrapItem} {state s : Option TaskState} {st : Stage}
    (hmem : .returned g i s ∈ story c h item state st) :
    s = state ∧ (∀ it, st ≠ .taken it) ∧ ∀ it, st ≠ .handle it := by
  cases st <;> simp only [story, outcome] at hmem
  case taken | handle => simp at hmem
  case handled | wake | exited =>
    simp at hmem
    exact ⟨hmem.2.2, by simp, by simp⟩
  all_goals
    refine ⟨?_, by simp, by simp⟩
    split at hmem <;> simp at hmem <;> exact hmem.2.2

/-- A task that `handle` left `Exited` is still in the hands of the handler, or deallocated. -/
theorem told_exited {v : TrapView cfg} {g : TaskPtr} {d : Cpu cfg} (hT : Told i v)
    (hpush : .push_trap d ⟨i, some t⟩ ∈ v.history) (hret : .returned g i (some .exited) ∈ v.history) :
    (∃ h st, v.held h = some st ∧ st.holds = some t) ∨ ∃ h, .dealloc_task h i t ∈ v.history := by
  cases hT with
  | fresh => simp at hpush
  | queued c item hi => simp at hret
  | held c h item state st hi hst hof =>
    obtain rfl := story_push hpush
    obtain ⟨rfl, htaken, hhandle⟩ := story_returned hret
    cases st with
    | taken it => exact absurd rfl (htaken it)
    | handle it => exact absurd rfl (hhandle it)
    | handled it =>
      obtain ⟨rfl, -⟩ := hof
      exact Or.inl ⟨h, .handled ⟨i, some t⟩, by simp, rfl⟩
    | wake it u =>
      obtain ⟨-, -, hstate⟩ := hof
      cases hstate
    | exited it u =>
      obtain ⟨-, hu, -⟩ := hof
      exact Or.inl ⟨h, .exited it u, by simp, hu.symm⟩
    | dealloc it => exact Or.inr ⟨h, by simp [story, outcome]⟩
    | top => exact absurd rfl hst
  | finished c h item state hi hof =>
    have hpush : .push_trap d ⟨i, some t⟩ ∈ story c h item state .top := hpush
    have hret : .returned g i (some .exited) ∈ story c h item state .top := hret
    obtain rfl := story_push hpush
    obtain ⟨rfl, -, -⟩ := story_returned hret
    exact Or.inr ⟨h, by simp [story, outcome]⟩

/-- Such a task is in no ready queue any more. -/
theorem Traced.exited_not_ready {g : TaskPtr} {d : Cpu cfg} (hT : Traced m) (hpush : .push_trap d ⟨i, some t⟩ ∈ m.log)
    (hret : .returned g i (some .exited) ∈ m.log) (p : Pid cfg) (l : Level cfg) : t ∉ m.ready p l := by
  have hpush' : .push_trap d ⟨i, some t⟩ ∈ (m.trap_view i).history := List.mem_filter.mpr ⟨hpush, by simp [Event.info]⟩
  have hret' : .returned g i (some .exited) ∈ (m.trap_view i).history :=
    List.mem_filter.mpr ⟨hret, by simp [Event.info]⟩
  rcases told_exited (hT.told i) hpush' hret' with ⟨h, st, hheld, ht⟩ | ⟨h, hmem⟩
  · have h₀ : m.stage h = some st := (Option.filter_eq_some_iff.mp hheld).1
    exact held_not_ready hT.inv h₀ ht p l
  · obtain ⟨s, hv⟩ := hT.gone h i t (List.mem_of_mem_filter hmem)
    exact fun hready => ready_somewhere hT.inv hready s hv

theorem start_traced (b : Boot cfg) : Traced b.machine where
  inv := b.inv
  told := by
    intro i
    have hv : b.machine.trap_view i = ⟨fun _ => [], fun _ => none, []⟩ := by
      simp only [trap_view, Boot.machine, List.filter_nil, TrapView.mk.injEq, true_and, and_true]
      funext h
      split <;> simp [Option.filter, Stage.info]
    rw [hv]
    exact .fresh
  fresh := by
    intro i _
    simp only [trap_view, Boot.machine, List.filter_nil, TrapView.mk.injEq, true_and, and_true]
    funext h
    split <;> simp [Option.filter, Stage.info]
  settled := by
    intro h item h₀
    simp only [Boot.machine] at h₀
    split at h₀ <;> simp at h₀
  gone := by simp [Boot.machine]

/-- The traps pushed on a CPU are removed in order, each by a handler at the top of its loop on that CPU.
    Every trap is queued, held by one handler or finished, and its history is the one `Told` gives: in the
    end `handle` and `dealloc` once each, and in between the task enqueued once if `handle` left it
    `Blocked`, deallocated once if `Exited`. A task that is enqueued is `Ready` and was in no ready queue;
    one left `Exited` never is in one again. -/
theorem trap_handled_once (b : Boot cfg) (acts : List (Act cfg)) (m : Machine cfg)
    (hrun : Runs.run step b.machine acts = some m) :
    InOrder m ∧
    (∀ a m' c, m.step a = some m' → m'.traps c = m.traps c ∨ (∃ item, m'.traps c = m.traps c ++ [item]) ∨
      m.pc c = .run ∧ m.stage (m.current_task c) = some .top ∧
        ∃ item, m.traps c = item :: m'.traps c ∧ m'.stage (m.current_task c) = some (.taken item)) ∧
    (∀ i, Told i (m.trap_view i)) ∧
    (∀ a m' h i t, m.step a = some m' → .push_task h i t ∈ m'.log → .push_task h i t ∉ m.log →
      (m'.tasks t).state = .ready ∧ (∀ p l, t ∉ m.ready p l) ∧ ∃ l, t ∈ m'.ready (m.home t) l) ∧
    (∀ c h i t, .push_trap c ⟨i, some t⟩ ∈ m.log → .returned h i (some .exited) ∈ m.log →
      ∀ p l, t ∉ m.ready p l) := by
  have hstep : ∀ (s : Machine cfg) (a : Act cfg) (s' : Machine cfg), Traced s ∧ InOrder s → s.step a = some s' →
      Traced s' ∧ InOrder s' := by
    rintro s a s' ⟨hT, hO⟩ hs
    exact ⟨step_traced hT hs, step_in_order hO (step_trap_effect hT.inv hs)⟩
  obtain ⟨hT, hO⟩ := Runs.run_invariant hstep acts ⟨start_traced b, fun _ => rfl⟩ hrun
  refine ⟨hO, ?_, hT.told, ?_, ?_⟩
  · intro a m' c hs
    exact step_queue (step_trap_effect hT.inv hs) c
  · intro a m' h i t hs hnew hold
    exact step_enqueued hT.inv (step_trap_effect hT.inv hs) hnew hold
  · intro c h i t hpush hret
    exact hT.exited_not_ready hpush hret

/-- The init task of the first CPU traps, and a handler of that CPU handles the trap. -/
def handle_trap : List (Act duo) :=
  [.trap duo_first, .next duo_first, .take_trap duo_first, .next duo_first, .next duo_first, .next duo_first,
    .next duo_first, .next duo_first, .next duo_first, .next duo_first, .next duo_first, .next duo_first,
    .next duo_first]

theorem trap_handled_once_handle_trap : ∃ m : Machine duo,
    Runs.run step (Boot.plain duo).machine handle_trap = some m ∧
    m.log = story duo_first 4 ⟨0, some 0⟩ (some .blocked) .top ∧ Told 0 (m.trap_view 0) ∧
    pushed duo_first m.log = [0] ∧ InOrder m := by
  have hrun : ((Runs.run step (Boot.plain duo).machine handle_trap).map fun m =>
      decide (m.log = story duo_first 4 ⟨0, some 0⟩ (some .blocked) .top)) = some true := by decide +kernel
  obtain ⟨m, hm, hlog⟩ := Option.map_eq_some_iff.mp hrun
  have hlog := of_decide_eq_true hlog
  obtain ⟨horder, -, htold, -, -⟩ := trap_handled_once (Boot.plain duo) handle_trap m hm
  exact ⟨m, hm, hlog, htold 0, by rw [hlog]; decide, horder⟩

end Machine

end Vsched2
