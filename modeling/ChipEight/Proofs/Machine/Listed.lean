import ChipEight.Proofs.Machine.Trace
import ChipEight.Proofs.Memory

/-! # The listing of what is in memory

The lines of an image are the words that are fetched once the image is in memory, at the addresses
where they are fetched, and the traces of these steps begin with them: `listed_fetched_traced`.
-/

namespace ChipEight.Machine

variable {m : Machine} {image : List UInt8}

theorem address_lt (h : image.length ≤ maxProgramSize) {k : Nat} (hk : k < image.length) :
    programStart + k < 4096 := by
  have : maxProgramSize = 4096 - programStart := rfl
  omega

/-- The word of two bytes of an image that is in memory. -/
theorem opcodeAt_loaded (m : Machine) (h : image.length ≤ maxProgramSize) {k : Nat}
    (hk : 2 * k + 1 < image.length) :
    opcodeAt
      { m with
        memory := m.memory.overlay programStart image
        pc := (programStart + 2 * k : Nat) } =
      .ofBytes image[2 * k].toNat image[2 * k + 1].toNat := by
  have hhigh := m.memory.read_overlay (Nat.lt_of_succ_lt hk) (address_lt h (Nat.lt_of_succ_lt hk))
  have hlow := m.memory.read_overlay hk (address_lt h hk)
  have hnext : ((programStart + (2 * k + 1) : Nat) : Int) = (programStart + 2 * k : Nat) + 1 := by
    omega
  rw [hnext] at hlow
  rw [opcodeAt, hhigh, hlow]

/-- With the program counter at a word of the image, what is fetched is the word on its line of the
listing, which has that address, and what the step traces begins with the line. -/
theorem listed_fetched_traced (m : Machine) {image : List UInt8}
    (hsize : image.length ≤ maxProgramSize) {k : Nat} (hk : 2 * k + 1 < image.length) :
    ∃ loaded line, m.load image = .ok loaded ∧ (Listing.lines programStart image)[k]? = some line ∧
      let here := { loaded with pc := (programStart + 2 * k : Nat) }
      let row := Listing.Row.read line
      here.fetch.1.val = 256 * image[2 * k].toNat + image[2 * k + 1].toNat ∧
      Hex.value row.digits = here.fetch.1.val ∧ row.digits.length = 4 ∧
      row.address = here.pc ∧
      ∀ log : Log, log.threshold = .trace → ∃ message gap rest,
        (here.stepLogged log).2.ofLevel .trace = log.ofLevel .trace ++
          [⟨.trace, .machine, message⟩] ∧
        message.toList = line.toList ++ (List.replicate gap ' ' ++ " V=".toList ++ rest) := by
  have hload := m.load_of_le hsize
  have hline := Listing.getElem?_lines programStart (Nat.lt_of_succ_lt hk) hk
  have hword := m.opcodeAt_loaded hsize hk
  refine ⟨_, _, hload, hline, ?_⟩
  intro here row
  have hfetch : here.fetch.1 = .ofBytes image[2 * k].toNat image[2 * k + 1].toNat := hword
  have hrow : row =
      ⟨here.pc, Hex.paddedDigits 4 here.fetch.1.val, (disassemble here.fetch.1).toList⟩ := by
    rw [hfetch]
    exact Listing.read_wordLine _ _
  refine ⟨?_, ?_, ?_, ?_, fun log hlog => ?_⟩
  · rw [hfetch, Opcode.val_ofBytes image[2 * k].toNat_lt image[2 * k + 1].toNat_lt, Nat.mul_comm]
  · rw [hrow]
    exact Hex.value_paddedDigits 4 _
  · rw [hrow]
    exact Hex.length_paddedDigits here.fetch.1.val_lt
  · rw [hrow]
  · have hpc : (here.advance.fetchedFrom : Int) = programStart + 2 * k := by
      have hlt : programStart + 2 * k < 4096 := address_lt hsize (Nat.lt_of_succ_lt hk)
      rw [fetchedFrom_advance]
      exact congrArg Nat.cast (low16_of_lt (Nat.lt_trans hlt (by decide)))
    obtain ⟨gap, hmessage⟩ := here.toList_traceMessage
    rw [hpc, show here.opcodeAt = _ from hfetch] at hmessage
    have hrecords := ((Tells.step here).ofLevel_addAll hlog).1
    refine ⟨here.traceMessage, gap, [' '].intercalate here.fieldTexts, ?_, ?_⟩
    · rw [here.stepLogged_eq]
      exact hrecords
    · rw [hmessage]
      simp

/-- A word that is no instruction, before an odd last byte. -/
theorem listed_fetched_traced_data :
    let image : List UInt8 := [0x12, 0x00, 0xFF, 0xFE, 0x7F]
    let m := fresh .silent .zeros
    image.length ≤ maxProgramSize ∧ 2 * 1 + 1 < image.length ∧
      ∃ loaded line, m.load image = .ok loaded ∧
        (Listing.lines programStart image)[1]? = some line ∧
        let here := { loaded with pc := 0x202 }
        here.fetch.1.val = 0xFFFE ∧ Hex.value (Listing.Row.read line).digits = 0xFFFE ∧
        (Listing.Row.read line).address = 0x202 ∧
        ∃ message gap rest,
          (here.stepLogged (.new .trace)).2.ofLevel .trace = [⟨.trace, .machine, message⟩] ∧
          message.toList = line.toList ++ (List.replicate gap ' ' ++ " V=".toList ++ rest) := by
  intro image m
  have hsize : image.length ≤ maxProgramSize := by decide
  have hk : 2 * 1 + 1 < image.length := by decide
  obtain ⟨loaded, line, hload, hline, hword, hdigits, -, haddress, htrace⟩ :=
    listed_fetched_traced m hsize hk
  obtain ⟨message, gap, rest, hrecords, hmessage⟩ := htrace (.new .trace) rfl
  exact ⟨hsize, hk, loaded, line, hload, hline, hword, hdigits.trans hword, haddress,
    message, gap, rest, hrecords, hmessage⟩

end ChipEight.Machine
