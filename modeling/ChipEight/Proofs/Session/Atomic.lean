import ChipEight.Proofs.Machine.Fault
import ChipEight.Proofs.Session.Delivery

/-! # Ticks that fail

A tick of an unknown kind does nothing, and a timer tick cannot fail. A cycle tick fails with the
instruction that it comes to, by when the key events are in the keypad (`drain_eq`) and the
instruction is fetched; what comes behind the instruction is left out, so `failed_cycle` says all
that is different then (`handle_atomic`).
-/

namespace ChipEight

namespace Tick

theorem ofKind_of_ne {kind : String} (hcycle : kind ≠ "cycle") (htimer : kind ≠ "timer") :
    ofKind kind = .other kind := by
  unfold ofKind
  split
  · exact absurd rfl hcycle
  · exact absurd rfl htimer
  · rfl

end Tick

/-- The renderer with no key events left. -/
def Renderer.drained : Renderer → Renderer
  | .recorder r => .recorder { r with events := [] }
  | r => r

namespace Session

variable {s : Session}

theorem drain_eq (hs : s.renderer.Headless) :
    s.drain = ({ s with renderer := s.renderer.drained, pending := [], machine := s.supplied },
      none) := by
  unfold drain
  cases hr : s.renderer with
  | window w =>
    rw [hr] at hs
    exact hs.elim
  | none =>
    simp only [Renderer.poll, Renderer.drained, supplied, inbox, Renderer.waiting, hr, List.map_nil]
  | recorder r =>
    simp only [Renderer.poll, Recorder.poll, Renderer.drained, supplied, inbox,
      Renderer.waiting, hr]

theorem handle_timer_ok (hs : s.renderer.Headless) : (s.handle .timer).2 = none := by
  simp only [handle, serveTimer]
  cases hr : s.renderer with
  | window w =>
    rw [hr] at hs
    exact hs.elim
  | none | recorder => rfl

theorem error_cycle (hs : s.renderer.Headless) :
    (s.handle .cycle).2 = s.supplied.step.2.map .machine := by
  obtain ⟨_, _, _, -, -, heq⟩ := handle_cycle hs
  rw [heq]

/-- The records of an instruction that fails: its trace alone. -/
theorem stepRecords_of_fault {m : Machine} {f : Fault} (hstep : m.step.2 = some (.fault f)) :
    m.stepRecords = [⟨.trace, .machine, m.traceMessage⟩] := by
  have hword : ¬ m.opcodeAt.IsKeyWait := by
    intro hwait
    rcases m.keyWait_cases with ⟨-, j, hj, -⟩ | hw | hno
    · rw [Machine.step_of_firstDown? hwait hj] at hstep
      cases hstep
    · rw [Machine.step_of_waits hw] at hstep
      cases hstep
    · exact hno hwait
  rw [Machine.stepRecords, Machine.latch?_of_not_isKeyWait hword]
  rfl

theorem failed_cycle (hs : s.renderer.Headless) {f : Fault}
    (hstep : s.supplied.step = (s.supplied.advance, some (.fault f))) :
    s.handle .cycle =
      ({ s with
          machine := { s.machine with
            keypad := s.inbox.foldl Keypad.apply s.machine.keypad
            pc := (s.machine.pc + 2) % 65536 }
          pending := []
          renderer := s.renderer.drained
          log := s.log.add ⟨.trace, .machine, s.machine.traceMessage⟩ },
        some (.machine (.fault f))) := by
  have hrecords : s.supplied.stepRecords = [⟨.trace, .machine, s.supplied.traceMessage⟩] :=
    stepRecords_of_fault (congrArg Prod.snd hstep)
  have hadvance : s.supplied.advance = { s.supplied with pc := (s.machine.pc + 2) % 65536 } := by
    rw [← natCast_low16]
    rfl
  rw [handle, serveCycle, drain_eq hs]
  simp only [step_eq, hstep, hrecords, hadvance]
  rfl

/-- A tick of any kind other than the two known ones fails and changes nothing; a timer tick does
not fail. A cycle tick fails exactly if the instruction returns with nothing on the call stack or
calls with sixteen entries on it. Then the key events that waited are in the keypad, each latch
where the last of them for its key puts it or else as it was, the program counter has moved on, the
instruction is in the trace, and all else is as it was. -/
theorem handle_atomic (hs : s.renderer.Headless) (hd : s.machine.screen.Drawable) :
    (∀ kind : String,
      ((∃ k, (s.handle (.ofKind kind)).2 = some (.unknownTick k)) ↔
        kind ≠ "cycle" ∧ kind ≠ "timer") ∧
      (kind ≠ "cycle" ∧ kind ≠ "timer" → s.handle (.ofKind kind) = (s, some (.unknownTick kind)))) ∧
    (s.handle (.ofKind "timer")).2 = none ∧
    ((s.handle (.ofKind "cycle")).2 ≠ none ↔
      s.machine.opcodeAt.val = 0x00EE ∧ s.machine.stack = [] ∨
        s.machine.opcodeAt.kind = 0x2 ∧ 16 ≤ s.machine.stack.length) ∧
    ∀ e, (s.handle (.ofKind "cycle")).2 = some e → (∃ f, e = .machine (.fault f)) ∧
      (s.handle (.ofKind "cycle")).1 =
        { s with
          machine := { s.machine with
            keypad := s.inbox.foldl Keypad.apply s.machine.keypad
            pc := (s.machine.pc + 2) % 65536 }
          pending := []
          renderer := s.renderer.drained
          log := s.log.add ⟨.trace, .machine, s.machine.traceMessage⟩ } ∧
      ∀ key : Int, (s.handle (.ofKind "cycle")).1.machine.keypad.isDown key =
        (s.inbox.reverse.findSome? (·.says? key)).getD (s.machine.keypad.isDown key) := by
  have hcycle : s.handle (.ofKind "cycle") = s.handle .cycle := rfl
  have hdrawable : s.supplied.screen.Drawable := hd
  have herror := error_cycle hs
  rw [hcycle]
  refine ⟨fun kind => ⟨⟨?_, ?_⟩, ?_⟩, handle_timer_ok hs, ⟨?_, ?_⟩, ?_⟩
  · rintro ⟨k, hk⟩
    constructor
    · rintro rfl
      rw [hcycle, herror] at hk
      obtain ⟨e, -, he⟩ := Option.map_eq_some_iff.1 hk
      cases he
    · rintro rfl
      cases (handle_timer_ok hs).symm.trans hk
  · rintro ⟨hnotCycle, hnotTimer⟩
    rw [Tick.ofKind_of_ne hnotCycle hnotTimer]
    exact ⟨kind, rfl⟩
  · rintro ⟨hnotCycle, hnotTimer⟩
    rw [Tick.ofKind_of_ne hnotCycle hnotTimer]
    rfl
  · intro hne
    by_contra hno
    rw [herror, Machine.error_eq_none hdrawable hno] at hne
    exact hne rfl
  · intro hfaults
    obtain ⟨f, hstep⟩ := Machine.step_of_faults (m := s.supplied) hfaults
    rw [herror, hstep]
    exact Option.some_ne_none _
  · intro e he
    by_cases hfaults : s.supplied.Faults
    · obtain ⟨f, hstep⟩ := Machine.step_of_faults hfaults
      rw [failed_cycle hs hstep] at he ⊢
      cases he
      exact ⟨⟨f, rfl⟩, rfl, Keypad.isDown_applied _ _⟩
    · rw [herror, Machine.error_eq_none hdrawable hfaults] at he
      cases he

/-- A call with sixteen entries on the stack, in the last word of memory but one, with key events
waiting on both sides. -/
theorem handle_atomic_of_overflow :
    let m := { (Machine.fresh .silent .zeros).live [.write 0xFFFE 0x23, .write 0xFFFF 0x45] with
      pc := 0xFFFE, stack := List.replicate 16 0x300 }
    let r := { Recorder.new none with events := [⟨0x17, true⟩, ⟨3, false⟩] }
    let s := { ofRates m (.recorder r) 500 60 .trace with pending := [⟨3, true⟩], cycles := 5 }
    s.renderer.Headless ∧ s.machine.screen.Drawable ∧
      s.handle (.ofKind "tick") = (s, some (.unknownTick "tick")) ∧
      (s.handle (.ofKind "cycle")).2 ≠ none ∧
      ((s.handle (.ofKind "cycle")).1.machine.pc, (s.handle (.ofKind "cycle")).1.cycles) = (0, 5) ∧
      (s.handle (.ofKind "cycle")).1.machine.stack = s.machine.stack ∧
      [7, 0x17, 3, 4].map (s.handle (.ofKind "cycle")).1.machine.keypad.isDown =
        [true, true, false, false] ∧
      (s.handle (.ofKind "cycle")).1.inbox = [] := by
  intro m r s
  have hs : s.renderer.Headless := trivial
  have hd : s.machine.screen.Drawable := ⟨Screen.blank_wellFormed 64 32, by decide, by decide⟩
  obtain ⟨hother, -, hfails, hafter⟩ := handle_atomic hs hd
  have hcall : s.machine.opcodeAt.kind = 0x2 ∧ 16 ≤ s.machine.stack.length := by decide +kernel
  have hne := hfails.2 (.inr hcall)
  obtain ⟨e, he⟩ := Option.ne_none_iff_exists'.1 hne
  obtain ⟨-, hstate, hlatch⟩ := hafter e he
  refine ⟨hs, hd, (hother "tick").2 (by decide), hne, ?_, ?_, ?_, ?_⟩
  · rw [hstate]
    rfl
  · rw [hstate]
  · rw [List.map_congr_left fun key _ => hlatch key]
    decide +kernel
  · rw [hstate]
    rfl

end Session

end ChipEight
