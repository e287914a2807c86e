import ChipEight.Proofs.Session.Resume

/-! # Histories

A history is a list of commands, which callers give a session one after the other: something arrives
beside any run, a program is loaded, or a run is made. None starts the clock, with which on no run
would begin. `live` is the session afterwards, `executions` the machines that executed an
instruction on the way, and `stages` the sessions that were passed through, those within the runs
among them.
-/

namespace ChipEight

/-- What a caller may do with a session. -/
inductive Command
  | arrival (a : Arrival)
  | load (program : List UInt8)
  | run (arrivals : List Arrival) (limit : Option Int)
deriving DecidableEq, Repr

namespace Command

def IsRun : Command → Prop
  | .run _ _ => True
  | _ => False

/-- Ticks are served within runs only. -/
def Paced : Command → Prop
  | .arrival (.tick _) => False
  | _ => True

end Command

namespace Session

def obey (s : Session) : Command → Session
  | .arrival a => (s.meet a).1
  | .load program => (s.load program).1
  | .run arrivals limit => (s.run arrivals limit).1

def live (s : Session) (cs : List Command) : Session := cs.foldl obey s

/-- The machine that executes an instruction at an arrival: that of a cycle tick, with the key
events that waited in its keypad. -/
def executes (s : Session) : Arrival → List Machine
  | .tick .cycle =>
    match s.drain with
    | (s, none) => [s.machine]
    | (_, some _) => []
  | _ => []

def executed (s : Session) : Command → List Machine
  | .arrival a => s.executes a
  | .load _ => []
  | .run arrivals limit => (s.begin arrivals).gather executes (s.met arrivals limit)

/-- The machines that execute an instruction in a history, each as it is right before the fetch. -/
def executions (s : Session) : List Command → List Machine
  | [] => []
  | c :: cs => s.executed c ++ (s.obey c).executions cs

def during (s : Session) : Command → List Session
  | .run arrivals limit => (s.met arrivals limit).inits.map (s.begin arrivals).meetAll
  | _ => []

def stages (s : Session) : List Command → List Session
  | [] => [s]
  | c :: cs => s :: s.during c ++ (s.obey c).stages cs

section
variable {limit : Option Int} {s : Session} {p q met left : List Arrival} {a : Arrival}

theorem mem_gather {α : Type} {give : Session → Arrival → List α} {x : α} {as : List Arrival} :
    x ∈ s.gather give as ↔ ∃ p a, p ++ [a] <+: as ∧ x ∈ give (s.meetAll p) a := by
  induction as generalizing s with
  | nil => simp [gather]
  | cons b as ih =>
    rw [gather, List.mem_append, ih]
    constructor
    · rintro (hx | ⟨p, a, hp, hx⟩)
      · exact ⟨[], b, List.prefix_append [b] as, hx⟩
      · exact ⟨b :: p, a, List.cons_prefix_cons.2 ⟨rfl, hp⟩, hx⟩
    · rintro ⟨p, a, hp, hx⟩
      cases p with
      | nil => exact .inl ((List.cons_prefix_cons.1 hp).1 ▸ hx)
      | cons c p =>
        obtain ⟨rfl, hrest⟩ := List.cons_prefix_cons.1 hp
        exact .inr ⟨p, a, hrest, hx⟩

theorem machine_meet_of_paced (ha : (Command.arrival a).Paced) :
    (s.meet a).1.machine = s.machine ∧ s.executes a = [] := by
  cases a with
  | tick t => exact ha.elim
  | nothing | interrupt => exact ⟨rfl, rfl⟩
  | happening e =>
    obtain ⟨_, _, _, _, hmeet⟩ := s.meet_happening_frame e
    exact ⟨by rw [hmeet], rfl⟩

/-- What an arrival does to the machine: an instruction is executed, or none is. -/
theorem machine_meet (s : Session) (a : Arrival) :
    (∃ keypad, s.executes a = [{ s.machine with keypad }] ∧
      (s.meet a).1.machine = (Machine.step { s.machine with keypad }).1) ∨
    s.executes a = [] ∧ ((s.meet a).1.machine = s.machine ∨
      (s.meet a).1.machine = s.machine.tick) := by
  have hkeep := machine_meet_of_paced (s := s) (a := a)
  cases a with
  | nothing | interrupt | happening =>
    obtain ⟨hmachine, hnone⟩ := hkeep trivial
    exact .inr ⟨hnone, .inl hmachine⟩
  | tick t =>
    cases t with
    | other => exact .inr ⟨rfl, .inl rfl⟩
    | timer => exact .inr ⟨rfl, .inr rfl⟩
    | cycle =>
      simp only [executes, meet, handle, serveCycle, drain]
      cases s.renderer.poll with
      | error => exact .inr ⟨rfl, .inl rfl⟩
      | ok => exact .inl ⟨_, rfl, by simp only [step_eq]⟩

theorem wellFormed_meet (h : s.machine.WellFormed) (a : Arrival) :
    (s.meet a).1.machine.WellFormed := by
  rcases s.machine_meet a with ⟨keypad, -, hm⟩ | ⟨-, hm | hm⟩
  · rw [hm]; exact Machine.WellFormed.step { h with }
  · rw [hm]; exact h
  · rw [hm]; exact h.tick

theorem wellFormed_meetAll (h : s.machine.WellFormed) (as : List Arrival) :
    (s.meetAll as).machine.WellFormed :=
  List.foldlRecOn (motive := fun s' : Session => s'.machine.WellFormed) as _ h
    fun _ hs' a _ => wellFormed_meet hs' a

theorem machine_load (s : Session) (program : List UInt8) :
    (s.load program).1.machine = s.machine ∨
      s.machine.load program = .ok (s.load program).1.machine := by
  simp only [load, Machine.loadLogged]
  split
  next h => exact .inl rfl
  next h =>
    split at h
    · cases h
    next hm => cases h; exact .inr hm

/-- Instructions are executed in runs only; besides them a machine may be loaded. -/
theorem machine_obey {c : Command} (s : Session) (hc : c.Paced) :
    (∃ arrivals limit, c = .run arrivals limit) ∨
    s.executed c = [] ∧ ((s.obey c).machine = s.machine ∨
      ∃ program, s.machine.load program = .ok (s.obey c).machine) := by
  cases c with
  | run arrivals limit => exact .inl ⟨arrivals, limit, rfl⟩
  | arrival a =>
    obtain ⟨hmachine, hnone⟩ := machine_meet_of_paced (s := s) hc
    exact .inr ⟨hnone, .inl hmachine⟩
  | load program =>
    rcases s.machine_load program with hm | hm
    · exact .inr ⟨rfl, .inl hm⟩
    · exact .inr ⟨rfl, .inr ⟨program, hm⟩⟩

theorem Underway.of_prefix (h : Underway limit s p) (hq : q <+: p) : Underway limit s q where
  unheld r hr := h.unheld r (hr.trans hq)
  unended r a hr := h.unended r a (hr.trans hq)

theorem Ran.underway {out : Session × Ending} (h : Ran limit s met left out)
    (hq : q ++ [a] <+: met) :
    Underway limit s q := by
  -- the last arrival may be what ended the run, those before it did not
  have hlast : ∀ {p b}, Underway limit s p → q ++ [a] <+: p ++ [b] → Underway limit s q := by
    intro p b hp hq
    rcases List.prefix_concat_iff.1 hq with heq | hq
    · rw [(List.append_inj' heq rfl).1]; exact hp
    · exact hp.of_prefix ((List.prefix_append q [a]).trans hq)
  cases h with
  | atOnce => simp at hq
  | due hp | fault hp | escape hp => exact hlast hp hq
  | usedUp hp => exact hp.of_prefix ((List.prefix_append q [a]).trans hq)

end

end Session

end ChipEight
