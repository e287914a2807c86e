import ChipEight.Proofs.Machine.Contained
import ChipEight.Proofs.Session.History

/-! # Runs stay in memory

A run that goes on has looked at the program counter since the last tick, so that each instruction
it executes lies in memory and leaves the machine contained (`Underway.contained`). The last
instruction of a run may leave the program counter past the end of memory; the next run finds it
there and executes nothing, and so do all later ones (`executions_in_memory`).
-/

namespace ChipEight.Session

section
variable {limit : Option Int} {s : Session} {p met left : List Arrival} {a : Arrival} {m : Machine}
  {out : Session × Ending}

theorem contained_meet (h : s.machine.Contained) (hpc : s.machine.pc < 4096) (a : Arrival) :
    (s.meet a).1.machine.Contained := by
  rcases s.machine_meet a with ⟨keypad, -, hm⟩ | ⟨-, hm | hm⟩
  · rw [hm]; exact (h.keypad keypad).step hpc
  · rw [hm]; exact h
  · rw [hm]; exact h.tick

theorem pc_of_executes (hm : m ∈ s.executes a) : m.pc = s.machine.pc := by
  rcases s.machine_meet a with ⟨keypad, heq, -⟩ | ⟨heq, -⟩
  · rw [heq, List.mem_singleton] at hm; rw [hm]
  · rw [heq] at hm; cases hm

theorem Underway.contained (h : Underway limit s p) (hs : s.machine.Contained) :
    (s.meetAll p).machine.Contained ∧ (s.meetAll p).machine.pc < 4096 := by
  induction p using List.reverseRecOn with
  | nil => exact ⟨hs, not_le.1 (h.unheld [] List.prefix_rfl nofun .halted)⟩
  | append_singleton p a ih =>
    obtain ⟨hc, hpc⟩ := ih (h.of_prefix (List.prefix_append p [a]))
    have hkeep := machine_meet_of_paced (s := s.meetAll p) (a := a)
    refine ⟨by rw [meetAll_snoc]; exact contained_meet hc hpc a, ?_⟩
    -- a tick ends its poll, so that the program counter is looked at; without one it is as it was
    cases a with
    | tick | nothing => exact not_le.1 (h.unheld _ List.prefix_rfl (atLook_snoc.2 trivial) .halted)
    | interrupt | happening => rw [meetAll_snoc, (hkeep trivial).1]; exact hpc

theorem Ran.contained (h : Ran limit s met left out) (hs : s.machine.Contained) (hp : p <+: met) :
    (s.meetAll p).machine.Contained := by
  rcases List.eq_nil_or_concat' p with rfl | ⟨q, a, rfl⟩
  · exact hs
  · obtain ⟨hc, hpc⟩ := (h.underway hp).contained hs
    rw [meetAll_snoc]
    exact contained_meet hc hpc a

theorem Ran.pc_of_executed (h : Ran limit s met left out) (hs : s.machine.Contained)
    (hm : m ∈ s.gather executes met) : 0 ≤ m.pc ∧ m.pc < 4096 := by
  obtain ⟨q, a, hq, hm⟩ := mem_gather.1 hm
  obtain ⟨hc, hpc⟩ := (h.underway hq).contained hs
  rw [pc_of_executes hm]
  exact ⟨hc.wellFormed.pc_mem.1, hpc⟩

theorem Ran.met_eq_nil (h : Ran limit s met left out) (hpc : 4096 ≤ s.machine.pc) : met = [] := by
  cases met with
  | nil => rfl
  | cons a met =>
    have hnil : Underway limit s [] := h.underway (List.prefix_append [a] met)
    exact absurd hpc (hnil.unheld [] List.prefix_rfl nofun .halted)

end

section
variable {s : Session} {c : Command} {cs : List Command} {m : Machine}

theorem contained_obey (hs : s.machine.Contained) (hc : c.Paced) :
    (s.obey c).machine.Contained := by
  rcases s.machine_obey hc with ⟨arrivals, limit, rfl⟩ | ⟨-, hm | ⟨program, hm⟩⟩
  · obtain ⟨-, hran⟩ := s.ran_met arrivals limit
    rw [obey, hran.machine]
    exact hran.contained hs List.prefix_rfl
  · rw [hm]; exact hs
  · exact hs.load hm

theorem pc_of_executed (hs : s.machine.Contained) (hc : c.Paced) (hm : m ∈ s.executed c) :
    0 ≤ m.pc ∧ m.pc < 4096 := by
  rcases s.machine_obey hc with ⟨arrivals, limit, rfl⟩ | ⟨hnone, -⟩
  · obtain ⟨-, hran⟩ := s.ran_met arrivals limit
    exact hran.pc_of_executed hs hm
  · rw [hnone] at hm; cases hm

theorem contained_during (hs : s.machine.Contained) {s' : Session} (hs' : s' ∈ s.during c) :
    s'.machine.Contained := by
  cases c with
  | arrival | load => cases hs'
  | run arrivals limit =>
    obtain ⟨p, hp, rfl⟩ := List.mem_map.1 hs'
    obtain ⟨-, hran⟩ := s.ran_met arrivals limit
    exact hran.contained hs ((List.mem_inits p _).1 hp)

theorem contained_stages (hs : s.machine.Contained) (hcs : ∀ c ∈ cs, c.Paced) {s' : Session}
    (hs' : s' ∈ s.stages cs) : s'.machine.Contained := by
  induction cs generalizing s with
  | nil => rw [List.mem_singleton.1 hs']; exact hs
  | cons c cs ih =>
    rw [List.forall_mem_cons] at hcs
    rcases List.mem_cons.1 hs' with rfl | hs'
    · exact hs
    rcases List.mem_append.1 hs' with hs' | hs'
    · exact contained_during hs hs'
    · exact ih (contained_obey hs hcs.1) hcs.2 hs'

theorem pc_of_executions (hs : s.machine.Contained) (hcs : ∀ c ∈ cs, c.Paced)
    (hm : m ∈ s.executions cs) : 0 ≤ m.pc ∧ m.pc < 4096 := by
  induction cs generalizing s with
  | nil => cases hm
  | cons c cs ih =>
    rw [List.forall_mem_cons] at hcs
    rcases List.mem_append.1 hm with hm | hm
    · exact pc_of_executed hs hcs.1 hm
    · exact ih (contained_obey hs hcs.1) hcs.2 hm

theorem obey_of_halted (hpc : 4096 ≤ s.machine.pc) (hc : c.Paced) :
    s.executed c = [] ∧ 4096 ≤ (s.obey c).machine.pc := by
  rcases s.machine_obey hc with ⟨arrivals, limit, rfl⟩ | ⟨hnone, hm | ⟨program, hm⟩⟩
  · obtain ⟨-, hran⟩ := s.ran_met arrivals limit
    have hnil := hran.met_eq_nil hpc
    rw [executed, obey, hran.machine, hnil]
    exact ⟨rfl, hpc⟩
  · rw [hm]; exact ⟨hnone, hpc⟩
  · obtain ⟨_, hframe⟩ := Machine.load_frame hm
    rw [hframe]; exact ⟨hnone, hpc⟩

theorem executions_of_halted (hpc : 4096 ≤ s.machine.pc) (hcs : ∀ c ∈ cs, c.Paced) :
    s.executions cs = [] := by
  induction cs generalizing s with
  | nil => rfl
  | cons c cs ih =>
    rw [List.forall_mem_cons] at hcs
    obtain ⟨hnone, hpc⟩ := obey_of_halted hpc hcs.1
    rw [executions, hnone, ih hpc hcs.2]; rfl

end

/-- Whatever is loaded and however it is run, each instruction that is executed lies in memory, so
that the program counter is advanced once or twice and set back without being reduced; the program
counter and the return addresses stay in their bounds at all times; and once the program counter is
past the end of memory nothing is executed any more. -/
theorem executions_in_memory (audio : Audio) (random : ByteSource) (renderer : Renderer)
    (cycleRate timerRate : Int) (threshold : Log.Level) {cs : List Command}
    (hcs : ∀ c ∈ cs, c.Paced) :
    let s := ofRates (.fresh audio random) renderer cycleRate timerRate threshold
    (∀ m ∈ s.executions cs, (0 ≤ m.pc ∧ m.pc < 4096) ∧ m.advance.pc = m.pc + 2 ∧
      m.advance.advance.pc = m.pc + 4 ∧ m.advance.fetchedFrom = m.pc) ∧
    (∀ s' ∈ s.stages cs, s'.machine.pc ≤ 0x10FE ∧ ∀ a ∈ s'.machine.stack, a ≤ 0x1001) ∧
    (4096 ≤ (s.live cs).machine.pc →
      ∀ ds : List Command, (∀ d ∈ ds, d.Paced) → (s.live cs).executions ds = []) := by
  intro s
  have hs : s.machine.Contained := Machine.fresh_contained audio random
  refine ⟨fun m hm => ?_, fun s' hs' => ?_, fun hpc ds hds => executions_of_halted hpc hds⟩
  · have hpc := pc_of_executions hs hcs hm
    exact ⟨hpc, Machine.pc_exact hpc.1 hpc.2⟩
  · have hc := contained_stages hs hcs hs'
    exact ⟨hc.pc_le, hc.stack_le⟩

/-- The furthest jump there is, and a run after it. -/
theorem executions_in_memory_of_jump :
    let s := ofRates (.fresh .silent .zeros) .none 500 60 .info
    let cs : List Command := [.load [0x60, 0xFF, 0xBF, 0xFF], .arrival (.happening (.post 5 true)),
      .run [.tick .cycle, .nothing, .tick .cycle, .tick .cycle] none]
    let ds : List Command := [.load [0x12, 0x00], .run [.tick .cycle, .tick .cycle] (some 9)]
    (∀ c ∈ cs, c.Paced) ∧ (s.executions cs).map Machine.pc = [0x200, 0x202] ∧
      (∀ m ∈ s.executions cs, m.advance.advance.pc = m.pc + 4) ∧
      (s.live cs).machine.pc = 0x10FE ∧ (∀ d ∈ ds, d.Paced) ∧ (s.live cs).executions ds = [] := by
  intro s cs ds
  have hcs : ∀ c ∈ cs, c.Paced := by simp [cs, Command.Paced]
  have hds : ∀ d ∈ ds, d.Paced := by simp [ds, Command.Paced]
  obtain ⟨hexact, -, hnone⟩ := executions_in_memory .silent .zeros .none 500 60 .info hcs
  exact ⟨hcs, by decide +kernel, fun m hm => (hexact m hm).2.2.1, by decide +kernel, hds,
    hnone (by decide +kernel) ds hds⟩

end ChipEight.Session
