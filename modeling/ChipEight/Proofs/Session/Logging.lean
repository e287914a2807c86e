import ChipEight.Proofs.Machine.Trace
import ChipEight.Proofs.Session.History

/-! # Logs are written and never read

What is done with a session with another log, or with other arrivals queued, is the same but for the
records, which go to the log that there is (`handle_relabeled` and on to `runOnClock_relabeled`),
and these tell of the machines that executed an instruction, and of no other. So it makes no
difference to a caller what is kept on record, and with all kept there is a trace of each
instruction that was attempted (`logging_passive_complete`). `Operation` is whatever a caller may
do, and `conduct` what comes of it.
-/

namespace ChipEight

/-- What the owner of a machine may do with it besides loading a program and having it execute. -/
inductive Handling
  | tick
  | key (e : KeyEvent)
  | font (glyphs : List UInt8)
  | write (address value : Int)
  | fetch
  | push (address : Int)
  | pop

/-- What may be done with a session, or with its machine behind its back. -/
inductive Operation
  | command (c : Command)
  | start
  | clock (arrivals : List Arrival) (limit : Option Int)
  | step
  | handling (h : Handling)

/-- What an operation is answered with. -/
inductive Reply
  | done
  | met (e : Option Session.Failure)
  | loaded (e : Option Machine.Oversize)
  | started (e : Option Session.StartError)
  | ended (e : Except Session.StartError Session.Ending)
  | stepped (e : Option Machine.Error)
  | fetched (w : Opcode)
  | pushed (f : Option Fault)
  | popped (a : Except Fault Int)

/-- What is put on the stack is an address of 16 bits. -/
def Operation.Addressed : Operation → Prop
  | .handling (.push address) => 0 ≤ address ∧ address < 65536
  | _ => True

def Machine.handled (m : Machine) : Handling → Machine × Reply
  | .tick => (m.tick, .done)
  | .key e => (m.keySet e.key e.down, .done)
  | .font glyphs => (m.loadFont glyphs, .done)
  | .write address value => ({ m with memory := m.memory.write address value }, .done)
  | .fetch => (m.fetch.2, .fetched m.fetch.1)
  | .push address =>
    match m.push address with
    | .ok m' => (m', .pushed none)
    | .error f => (m, .pushed (some f))
  | .pop =>
    match m.pop with
    | .ok (a, m') => (m', .popped (.ok a))
    | .error f => (m, .popped (.error f))

theorem Machine.WellFormed.handled {m : Machine} (h : m.WellFormed) {hd : Handling}
    (hhd : (Operation.handling hd).Addressed) : (m.handled hd).1.WellFormed := by
  cases hd with
  | tick => exact h.tick
  | key e => exact h.keySet e.key e.down
  | font glyphs => exact h.memory (Memory.Bytes.overlay h.memory_lt _ _)
  | write address value => exact h.memory (Memory.Bytes.write h.memory_lt _ _)
  | fetch => exact h.advance
  | push address =>
    rw [Machine.handled]
    split
    next hm => exact h.push hhd hm
    · exact h
  | pop =>
    rw [Machine.handled]
    split
    next hm => exact (h.pop hm).2
    · exact h

namespace Session

variable {limit : Option Int} {s : Session}

theorem handle_relabeled (s : Session) (t : Tick) : ∃ rs, Tells rs (s.executes (.tick t)) ∧
    ∀ log queued, handle { s with log, queued } t =
      ({ (s.handle t).1 with log := log.addAll rs, queued }, (s.handle t).2) := by
  cases t with
  | timer | other => exact ⟨[], .nil, fun _ _ => rfl⟩
  | cycle =>
    simp only [executes, handle, serveCycle, drain]
    cases s.renderer.poll with
    | error => exact ⟨[], .nil, fun _ _ => rfl⟩
    | ok => exact ⟨_, .step _, fun _ _ => by simp only [step_eq]⟩

theorem turn_relabeled (s : Session) (t : Tick) : ∃ rs, Tells rs (s.executes (.tick t)) ∧
    ∀ log queued, turn { s with log, queued } t =
      ({ (s.turn t).1 with log := log.addAll rs, queued }, (s.turn t).2) := by
  obtain ⟨rs, htells, hhandle⟩ := s.handle_relabeled t
  cases he : (s.handle t).2 with
  | none =>
    refine ⟨rs, htells, fun log queued => ?_⟩
    rw [turn_of_ok he, turn_of_ok (by rw [hhandle]; exact he), hhandle]
  | some e =>
    by_cases hf : ∃ f, e = .machine (.fault f)
    · obtain ⟨f, rfl⟩ := hf
      refine ⟨_, htells.append_other (.error .scheduler ("fatal: " ++ f.message)),
        fun log queued => ?_⟩
      rw [turn_of_fault he, turn_of_fault (by rw [hhandle]; exact he), hhandle, Log.addAll_append]
      rfl
    · have hne : ∀ f, e ≠ .machine (.fault f) := fun f he => hf ⟨f, he⟩
      refine ⟨rs, htells, fun log queued => ?_⟩
      rw [turn_of_failure he hne, turn_of_failure (by rw [hhandle]; exact he) hne, hhandle]

theorem setRenderer?_relabeled (s : Session) (o : Option Renderer) (log : Log)
    (queued : List Arrival) :
    setRenderer? { s with log, queued } o = (s.setRenderer? o).map fun s' =>
      { s' with log, queued } := by
  cases o <;> rfl

theorem receive_relabeled (s : Session) (h : Happening) (log : Log) (queued : List Arrival) :
    receive { s with log, queued } h = (s.receive h).map fun s' => { s' with log, queued } := by
  cases h with
  | stop | post => rfl
  | quit | press | release => exact s.setRenderer?_relabeled _ log queued
  | host e =>
    simp only [receive]
    cases s.renderer.receiveHost e <;> rfl

theorem take_relabeled (s : Session) (a : Arrival) : ∃ rs, Tells rs (s.executes a) ∧
    ∀ log queued, take { s with log, queued } a =
      ({ (s.take a).1 with log := log.addAll rs, queued }, (s.take a).2) := by
  cases a with
  | nothing | interrupt => exact ⟨[], .nil, fun _ _ => rfl⟩
  | tick t => exact s.turn_relabeled t
  | happening h =>
    refine ⟨[], .nil, fun log queued => ?_⟩
    simp only [take, receive_relabeled]
    cases s.receive h <;> rfl

theorem take_eq_meet {a : Arrival} (h : (s.take a).2 = none) : (s.take a).1 = (s.meet a).1 := by
  cases a with
  | nothing => rfl
  | interrupt => cases h
  | happening => simp only [take, meet]; cases s.receive _ <;> rfl
  | tick t =>
    simp only [take, turn] at h ⊢
    show _ = (s.handle t).1
    split at h
    next heq => rw [heq]
    all_goals cases h

/-- A run from a poll on: what it writes, and how much of the arrivals it meets. -/
theorem serve_relabeled (limit : Option Int) (as : List Arrival) (s : Session) : ∃ rs met left,
    as = met ++ left ∧ (serve limit as s).1.queued = left ∧ Tells rs (s.gather executes met) ∧
    ∀ log queued, serve limit as { s with log, queued } =
      ({ (serve limit as s).1 with log := log.addAll rs }, (serve limit as s).2) := by
  induction as generalizing s with
  | nil => exact ⟨[], [], [], rfl, rfl, .nil, fun _ _ => rfl⟩
  | cons a as ih =>
    obtain ⟨rs, htells, htake⟩ := s.take_relabeled a
    have hone : Tells rs (s.gather executes [a]) := by
      rw [gather, gather, List.append_nil]
      exact htells
    cases ht : (s.take a).2 with
    | some e =>
      refine ⟨rs, [a], as, rfl, by rw [serve_of_ends ht], hone, fun log queued => ?_⟩
      rw [serve_of_ends ht, serve_of_ends (by rw [htake]; exact ht), htake]
    | none =>
      obtain ⟨rs', met, left, has, hleft, htells', hserve⟩ := ih (s.take a).1
      have hboth : Tells (rs ++ rs') (s.gather executes (a :: met)) := by
        rw [gather, ← take_eq_meet ht]
        exact htells.append htells'
      by_cases ha : a.EndsPoll
      · rw [serve_of_look ht ha]
        have hlook : ∀ log queued, serve limit (a :: as) { s with log, queued } =
            look { (s.take a).1 with log := log.addAll rs, queued } limit as := by
          intro log queued
          rw [serve_of_look (by rw [htake]; exact ht) ha, htake]
        have hsame : ∀ log queued, stopCondition? limit { (s.take a).1 with log, queued } =
            (s.take a).1.stopCondition? limit := fun _ _ => rfl
        cases hc : (s.take a).1.stopCondition? limit with
        | some r =>
          refine ⟨rs, [a], as, rfl, by rw [look, hc], hone, fun log queued => ?_⟩
          rw [hlook, look, hsame, look, hc]
        | none =>
          refine ⟨rs ++ rs', a :: met, left, congrArg (a :: ·) has,
            by rw [look, hc]; exact hleft, hboth, fun log queued => ?_⟩
          rw [hlook, look, hsame, look, hc, Log.addAll_append]
          exact hserve _ queued
      · refine ⟨rs ++ rs', a :: met, left, congrArg (a :: ·) has,
          by rw [serve_of_happening ht ha]; exact hleft, hboth, fun log queued => ?_⟩
        rw [serve_of_happening ht ha, serve_of_happening (by rw [htake]; exact ht) ha,
          htake, hserve, Log.addAll_append]

theorem meet_relabeled (s : Session) (a : Arrival) : ∃ rs, Tells rs (s.executes a) ∧
    ∀ log queued, meet { s with log, queued } a =
      ({ (s.meet a).1 with log := log.addAll rs, queued }, (s.meet a).2) := by
  cases a with
  | nothing | interrupt => exact ⟨[], .nil, fun _ _ => rfl⟩
  | tick t => exact s.handle_relabeled t
  | happening h =>
    refine ⟨[], .nil, fun log queued => ?_⟩
    simp only [meet, receive_relabeled]
    cases s.receive h <;> rfl

theorem proceed_relabeled (s : Session) (as : List Arrival) (limit : Option Int) : ∃ rs met left,
    as = met ++ left ∧ (s.queued = as → (s.proceed as limit).1.queued = left) ∧
    Tells rs (s.gather executes met) ∧
    ∀ log queued, ∃ queued', proceed { s with log, queued } as limit =
      ({ (s.proceed as limit).1 with log := log.addAll rs, queued := queued' },
        (s.proceed as limit).2) ∧
      (queued = s.queued → queued' = (s.proceed as limit).1.queued) := by
  have hsame : ∀ log queued, stopCondition? limit { s with log, queued } = s.stopCondition? limit :=
    fun _ _ => rfl
  cases hc : s.stopCondition? limit with
  | some r =>
    have hproceed : s.proceed as limit = (s, .stopped r) := by rw [proceed, hc]
    refine ⟨[], [], as, rfl, fun hq => by rw [hproceed]; exact hq, .nil,
      fun log queued => ⟨queued, ?_, ?_⟩⟩
    · rw [proceed, hsame, hproceed, hc]; rfl
    · rintro rfl
      rw [hproceed]
  | none =>
    have hproceed : s.proceed as limit = serve limit as s := by rw [proceed, hc]
    obtain ⟨rs, met, left, has, hleft, htells, hserve⟩ := serve_relabeled limit as s
    refine ⟨rs, met, left, has, fun _ => by rw [hproceed]; exact hleft, htells,
      fun log queued => ⟨_, ?_, fun _ => rfl⟩⟩
    rw [proceed, hsame, hproceed, hc]
    exact hserve log queued

theorem finish_relabeled (s : Session) (e : Ending) : ∃ rs, Tells rs [] ∧
    ∀ log, finish { s with log } e = { s.finish e with log := log.addAll rs } := by
  cases e with
  | stopped r =>
    exact ⟨[⟨.info, .scheduler, stoppedMessage { s with stopFlag := false, ticking := false } r⟩],
      .info _ _, fun _ => rfl⟩
  | interrupted | failed => exact ⟨[], .nil, fun _ => rfl⟩

theorem queued_finish (s : Session) (e : Ending) :
    (s.finish e).queued = s.queued := by cases e <;> rfl

/-- What runs have in common, with whatever queued: all of them but for their end. -/
theorem begin_relabeled (s : Session) (as : List Arrival) (limit : Option Int) : ∃ rs,
    Tells rs (s.executed (.run as limit)) ∧
    ∀ log queued, ∃ queued', proceed (begin { s with log } queued) as limit =
      ({ ((s.begin as).proceed as limit).1 with log := log.addAll rs, queued := queued' },
        ((s.begin as).proceed as limit).2) ∧
      (queued = as → queued' = ((s.begin as).proceed as limit).1.queued) := by
  obtain ⟨rs, met, left, has, hleft, htells, hproceed⟩ := (s.begin as).proceed_relabeled as limit
  have hmet : s.met as limit = met := by
    have hqueued : (s.run as limit).1.queued = left := (queued_finish _ _).trans (hleft rfl)
    have hmeet := (s.ran_met as limit).1
    rw [hqueued] at hmeet
    exact List.append_cancel_right (hmeet.symm.trans has)
  let start : Log.Record := ⟨.info, .scheduler, "scheduler started: " ++ toString s.cycleRate ++
    " Hz cycles, " ++ toString s.timerRate ++ " Hz timers"⟩
  have hstart : Tells [start] [] := .info _ _
  refine ⟨start :: rs, ?_, fun log queued => hproceed (log.add start) queued⟩
  rw [executed, hmet]
  exact hstart.append htells

theorem run_relabeled (s : Session) (as : List Arrival) (limit : Option Int) : ∃ rs,
    Tells rs (s.executed (.run as limit)) ∧
    ∀ log, run { s with log } as limit =
      ({ (s.run as limit).1 with log := log.addAll rs }, (s.run as limit).2) := by
  obtain ⟨rs, htells, hbegin⟩ := s.begin_relabeled as limit
  obtain ⟨rs', htells', hfinish⟩ :=
    ((s.begin as).proceed as limit).1.finish_relabeled ((s.begin as).proceed as limit).2
  refine ⟨rs ++ rs', htells.append_other htells', fun log => ?_⟩
  obtain ⟨queued, hproceed, hqueued⟩ := hbegin log as
  cases hqueued rfl
  simp only [run, hproceed, Log.addAll_append]
  exact Prod.ext (hfinish (log.addAll rs)) rfl

theorem runOnClock_relabeled (s : Session) (as : List Arrival) (limit : Option Int) : ∃ rs,
    Tells rs (if s.ticking then [] else s.executed (.run as limit)) ∧
    ∀ log, runOnClock { s with log } as limit =
      ({ (s.runOnClock as limit).1 with log := log.addAll rs }, (s.runOnClock as limit).2) := by
  by_cases hclock : s.ticking = true
  · refine ⟨[], by rw [if_pos hclock]; exact .nil, fun log => ?_⟩
    rw [runOnClock, runOnClock, if_pos hclock, if_pos hclock]
    rfl
  · rw [if_neg hclock]
    obtain ⟨rs, htells, hbegin⟩ := s.begin_relabeled as limit
    generalize (s.begin as).proceed as limit = out at hbegin
    obtain ⟨t, e⟩ := out
    obtain ⟨rs', htells', hfinish⟩ := finish_relabeled { t with queued := [] } e
    refine ⟨rs ++ rs', htells.append_other htells', fun log => ?_⟩
    -- the run is settled with its own log as with any other
    have hend : ∀ log, runOnClock { s with log } as limit =
        ({ finish { t with queued := [] } e with log := (log.addAll rs).addAll rs' }, .ok e) := by
      intro log
      obtain ⟨queued, hproceed, -⟩ := hbegin log []
      rw [runOnClock, if_neg hclock, hproceed]
      exact Prod.ext (hfinish (log.addAll rs)) rfl
    have hself : s.runOnClock as limit = _ := hend s.log
    rw [hend, hself, Log.addAll_append]

/-! ### Operations -/

/-- What is done and answered. With the clock running no run begins, though the last fault is
forgotten. -/
def perform (s : Session) : Operation → Session × Reply
  | .command (.arrival a) => ((s.meet a).1, .met (s.meet a).2)
  | .command (.load program) => ((s.load program).1, .loaded (s.load program).2)
  | .command (.run arrivals limit) =>
    if s.ticking then ({ s with fault := none }, .ended (.error .alreadyTicking))
    else ((s.run arrivals limit).1, .ended (.ok (s.run arrivals limit).2))
  | .start => (s.start.1, .started s.start.2)
  | .clock arrivals limit =>
    ((s.runOnClock arrivals limit).1, .ended (s.runOnClock arrivals limit).2)
  | .step =>
    let out := s.machine.stepLogged s.log
    ({ s with machine := out.1.1, log := out.2 }, .stepped out.1.2)
  | .handling h => ({ s with machine := (s.machine.handled h).1 }, (s.machine.handled h).2)

/-- The session and the reply after each operation. -/
def conduct (s : Session) : List Operation → List (Session × Reply)
  | [] => []
  | op :: ops => s.perform op :: (s.perform op).1.conduct ops

def after (s : Session) (ops : List Operation) : Session :=
  ops.foldl (fun s op => (s.perform op).1) s

/-- The machines on which an operation attempts an instruction, each as it is right before the
fetch. -/
def attempted (s : Session) : Operation → List Machine
  | .command (.run arrivals limit) | .clock arrivals limit =>
    if s.ticking then [] else s.executed (.run arrivals limit)
  | .command c => s.executed c
  | .step => [s.machine]
  | .start | .handling _ => []

def attempts (s : Session) : List Operation → List Machine
  | [] => []
  | op :: ops => s.attempted op ++ (s.perform op).1.attempts ops

/-- The session with a log that keeps nothing. -/
def silenced (s : Session) : Session := { s with log := .new .critical }

theorem perform_relabeled (s : Session) (op : Operation) : ∃ rs, Tells rs (s.attempted op) ∧
    ∀ log, perform { s with log } op =
      ({ (s.perform op).1 with log := log.addAll rs }, (s.perform op).2) := by
  cases op with
  | handling h => exact ⟨[], .nil, fun _ => rfl⟩
  | step => exact ⟨_, .step s.machine, fun _ => by simp only [perform, Machine.stepLogged_eq]⟩
  | start =>
    refine ⟨[], .nil, fun log => ?_⟩
    simp only [perform, start]
    split <;> rfl
  | clock as limit =>
    obtain ⟨rs, htells, hrun⟩ := s.runOnClock_relabeled as limit
    exact ⟨rs, htells, fun log => by rw [perform, hrun log]; rfl⟩
  | command c =>
    cases c with
    | run as limit =>
      by_cases hclock : s.ticking = true
      · refine ⟨[], by rw [attempted, if_pos hclock]; exact .nil, fun log => ?_⟩
        rw [perform, perform, if_pos hclock, if_pos hclock]
        rfl
      · obtain ⟨rs, htells, hrun⟩ := s.run_relabeled as limit
        refine ⟨rs, by rw [attempted, if_neg hclock]; exact htells, fun log => ?_⟩
        rw [perform, perform, if_neg hclock, if_neg hclock, hrun log]
    | arrival a =>
      obtain ⟨rs, htells, hmeet⟩ := s.meet_relabeled a
      have hqueued : (s.meet a).1.queued = s.queued := congrArg (·.1.queued) (hmeet s.log s.queued)
      refine ⟨rs, htells, fun log => ?_⟩
      rw [perform, hmeet log s.queued, ← hqueued]
      rfl
    | load program =>
      simp only [perform, load, Machine.loadLogged]
      cases s.machine.load program with
      | error => exact ⟨[], .nil, fun _ => rfl⟩
      | ok => exact ⟨[Machine.loadRecord program], .info _ _, fun _ => rfl⟩

theorem silenced_perform (s : Session) (op : Operation) :
    s.silenced.perform op = ((s.perform op).1.silenced, (s.perform op).2) := by
  obtain ⟨rs, htells, hperform⟩ := s.perform_relabeled op
  rw [silenced, hperform, htells.addAll_new_critical]
  rfl

/-- Whatever is on record, the same is done as with nothing on record. -/
theorem silenced_conduct (s : Session) (log : Log) (ops : List Operation) :
    (conduct { s with log } ops).map (fun out => (out.1.silenced, out.2)) =
      s.silenced.conduct ops := by
  induction ops generalizing s log with
  | nil => rfl
  | cons op ops ih =>
    have hsilent : ({ s with log } : Session).silenced = s.silenced := rfl
    rw [conduct, List.map_cons, conduct, ← hsilent, silenced_perform]
    exact congrArg _ (ih (perform { s with log } op).1 (perform { s with log } op).1.log)

theorem log_after (s : Session) (ops : List Operation) :
    ∃ rs, Tells rs (s.attempts ops) ∧ (s.after ops).log = s.log.addAll rs := by
  induction ops generalizing s with
  | nil => exact ⟨[], .nil, rfl⟩
  | cons op ops ih =>
    obtain ⟨rs, htells, hperform⟩ := s.perform_relabeled op
    obtain ⟨rs', htells', hlog⟩ := ih (s.perform op).1
    have hfirst : (s.perform op).1.log = s.log.addAll rs := congrArg (·.1.log) (hperform s.log)
    refine ⟨rs ++ rs', htells.append htells', ?_⟩
    rw [Log.addAll_append, ← hfirst]
    exact hlog

/-! ### The machines that attempt an instruction -/

theorem wellFormed_executes (h : s.machine.WellFormed) (a : Arrival) :
    ∀ m ∈ s.executes a, m.WellFormed := by
  rcases s.machine_meet a with ⟨keypad, hm, -⟩ | ⟨hm, -⟩
  · rw [hm, List.forall_mem_singleton]
    exact { h with }
  · rw [hm]
    exact List.forall_mem_nil _

theorem wellFormed_executed (h : s.machine.WellFormed) (c : Command) :
    ∀ m ∈ s.executed c, m.WellFormed := by
  cases c with
  | arrival a => exact wellFormed_executes h a
  | load => exact List.forall_mem_nil _
  | run as limit =>
    intro m hm
    obtain ⟨p, a, -, hm⟩ := mem_gather.1 hm
    exact wellFormed_executes (wellFormed_meetAll (s := s.begin as) h p) a m hm

theorem wellFormed_attempted (h : s.machine.WellFormed) (op : Operation) :
    ∀ m ∈ s.attempted op, m.WellFormed := by
  have hrun : ∀ as limit, ∀ m ∈ if s.ticking then [] else s.executed (.run as limit),
      m.WellFormed := by
    intro as limit
    split
    · exact List.forall_mem_nil _
    · exact wellFormed_executed h _
  cases op with
  | step => exact List.forall_mem_singleton.2 h
  | start | handling => exact List.forall_mem_nil _
  | clock as limit => exact hrun as limit
  | command c =>
    cases c with
    | run as limit => exact hrun as limit
    | arrival a => exact wellFormed_executed h (.arrival a)
    | load program => exact wellFormed_executed h (.load program)

theorem wellFormed_run (h : s.machine.WellFormed) (as : List Arrival) (limit : Option Int) :
    (s.run as limit).1.machine.WellFormed := by
  rw [(s.ran_met as limit).2.machine]
  exact wellFormed_meetAll (s := s.begin as) h _

theorem machine_finish (s : Session) (e : Ending) :
    (s.finish e).machine = s.machine := by cases e <;> rfl

theorem machine_runOnClock (s : Session) (as : List Arrival) (limit : Option Int) :
    (s.runOnClock as limit).1.machine = s.machine ∨
      (s.runOnClock as limit).1.machine = (s.run as limit).1.machine := by
  obtain ⟨rs, -, hbegin⟩ := s.begin_relabeled as limit
  obtain ⟨queued, hproceed, -⟩ := hbegin s.log []
  have hself : (s.begin []).proceed as limit = _ := hproceed
  have hrun : (s.run as limit).1.machine = ((s.begin as).proceed as limit).1.machine :=
    machine_finish _ _
  rw [runOnClock]
  split
  · exact .inl rfl
  · rw [hself, hrun]
    exact .inr (machine_finish _ _)

theorem wellFormed_perform (h : s.machine.WellFormed) {op : Operation} (hop : op.Addressed) :
    (s.perform op).1.machine.WellFormed := by
  cases op with
  | step => rw [perform, Machine.stepLogged_eq]; exact h.step
  | handling hd => exact h.handled hop
  | start =>
    have hm : s.start.1.machine = s.machine := by rw [start]; split <;> rfl
    rw [perform, hm]; exact h
  | clock as limit =>
    rcases s.machine_runOnClock as limit with hm | hm
    · rw [perform, hm]; exact h
    · rw [perform, hm]; exact wellFormed_run h as limit
  | command c =>
    cases c with
    | arrival a => exact wellFormed_meet h a
    | run as limit =>
      rw [perform]
      split
      · exact h
      · exact wellFormed_run h as limit
    | load program =>
      rcases s.machine_load program with hm | hm
      · rw [perform, hm]; exact h
      · exact h.load hm

theorem wellFormed_attempts (h : s.machine.WellFormed) {ops : List Operation}
    (hops : ∀ op ∈ ops, op.Addressed) : ∀ m ∈ s.attempts ops, m.WellFormed := by
  induction ops generalizing s with
  | nil => exact List.forall_mem_nil _
  | cons op ops ih =>
    obtain ⟨hop, hrest⟩ := List.forall_mem_cons.1 hops
    rw [attempts]
    exact List.forall_mem_append.2 ⟨wellFormed_attempted h op, ih (wellFormed_perform h hop) hrest⟩

/-- Nothing depends on what is on record: with any log, as with one that keeps nothing, all
operations leave the same session and get the same answers. With all on record there is one trace
for each attempt at an instruction, and it shows the machine before the instruction with the word
that is fetched; and there is one debug record for each key that an instruction takes, which names
the key and the register. -/
theorem logging_passive_complete (s : Session) (ops : List Operation) :
    (∀ log, (conduct { s with log } ops).map (fun out => (out.1.silenced, out.2)) =
      s.silenced.conduct ops) ∧
    (s.log.threshold = .trace →
      (s.after ops).log.ofLevel .trace = s.log.ofLevel .trace ++
        (s.attempts ops).map (fun m => ⟨.trace, .machine, m.traceMessage⟩) ∧
      (s.after ops).log.ofLevel .debug = s.log.ofLevel .debug ++
        ((s.attempts ops).filterMap Machine.latch?).map
          (fun latch => ⟨.debug, .machine, Machine.latchMessage latch.1 latch.2⟩)) ∧
    (s.machine.WellFormed → (∀ op ∈ ops, op.Addressed) → ∀ m ∈ s.attempts ops,
      Machine.Shown.read m.traceMessage = ⟨m.pc, m.fetch.1.val, m.v.toList, m.i⟩) ∧
    (∀ m ∈ s.attempts ops, (m.latch?.isSome ↔ m.EndsWait) ∧
      ∀ k x, m.latch? = some (k, x) ↔ m.Takes k ∧ x = m.opcodeAt.x) ∧
    ∀ k x, Machine.readLatch (Machine.latchMessage k x) =
      (some (Hex.upperDigit k), some (Hex.upperDigit x)) := by
  refine ⟨fun log => s.silenced_conduct log ops, fun hlog => ?_, fun hs hops m hm => ?_,
    fun m _ => m.latch?_spec, Machine.readLatch_latchMessage⟩
  · obtain ⟨rs, htells, hafter⟩ := s.log_after ops
    rw [hafter]
    exact htells.ofLevel_addAll hlog
  · have hpc := (wellFormed_attempts hs hops m hm).pc_mem
    have hexact : (low16 m.pc : Int) = m.pc := by unfold low16; omega
    rw [Machine.read_traceMessage, hexact]
    rfl

/-- A key wait that finds no key, the same one with key 7 down, and an instruction that faults. -/
theorem logging_passive_complete_of_fault :
    let s := ofRates (.fresh .silent .zeros) (.recorder (.new none)) 500 60 .trace
    let ops : List Operation :=
      [.command (.load [0xF1, 0x0A, 0x00, 0xEE]), .step, .handling (.key ⟨7, true⟩),
        .command (.run [.tick .cycle, .tick .cycle] none)]
    s.log.threshold = .trace ∧ s.machine.WellFormed ∧ (∀ op ∈ ops, op.Addressed) ∧
      (conduct { s with log := .new .trace } ops).map (fun out => (out.1.silenced, out.2)) =
        s.silenced.conduct ops ∧
      ((s.after ops).log.ofLevel .trace).map (fun r => (Machine.Shown.read r.message).pc) =
        [0x200, 0x200, 0x202] ∧
      (s.after ops).log.ofLevel .debug = [⟨.debug, .machine, "key 7 latched into V1"⟩] := by
  intro s ops
  have hwf : s.machine.WellFormed := Machine.fresh_wellFormed .silent .zeros
  have hops : ∀ op ∈ ops, op.Addressed := by simp [ops, Operation.Addressed]
  obtain ⟨hsilent, hrecords, hshown, -, -⟩ := logging_passive_complete s ops
  obtain ⟨htraces, hlatches⟩ := hrecords rfl
  have hpcs : (s.attempts ops).map Machine.pc = [0x200, 0x200, 0x202] := by decide +kernel
  have hkeys : (s.attempts ops).filterMap Machine.latch? = [(7, 1)] := by decide +kernel
  refine ⟨rfl, hwf, hops, hsilent _, ?_, ?_⟩
  · rw [htraces, ← hpcs]
    have hnone : s.log.ofLevel .trace = [] := rfl
    rw [hnone, List.nil_append, List.map_map]
    refine List.map_congr_left fun m hm => ?_
    simp only [Function.comp_apply, hshown hwf hops m hm]
  · rw [hlatches, hkeys]
    decide +kernel

end Session

end ChipEight
