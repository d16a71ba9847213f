import URiscV.Spec.FrontEnd

/-!
# Every instruction in flight has its own address

What IF/ID holds is the word at its own address, and ID/EX holds the decode of the word
at an address it was given, in every state behind a reset. The instruction memory cuts a
word address to `$clog2(IMEM_DEPTH)` bits: it wraps at the next power of two and not at
`IMEM_DEPTH`.

## Key results

- `inFlight_next`: one edge
- `own_address`: every state behind a reset
-/

namespace URiscV.Hdl.RvCpu

variable {imemDepth dmemDepth : Nat} {x : Word} {s : RvCpu}

/-- IF/ID and ID/EX hold nothing or a word with its address. -/
structure InFlight (imemDepth : Nat) (s : RvCpu) : Prop where
  ifid : s.uIfu.ifidI = 0 ∨ s.uIfu.ifidI = s.wordAt imemDepth s.uIfu.ifidPc
  idex : s.uIdu.idex.ctrl = {} ∨
    ∃ p a b, s.uIdu.idex = RvIdu.decode p (s.wordAt imemDepth p) a b

/-- In every fetch phase IF/ID is empty or has the word at its address. -/
theorem FetchPhase.ifid (h : FetchPhase imemDepth s) :
    s.uIfu.ifidI = 0 ∨ s.uIfu.ifidI = s.wordAt imemDepth s.uIfu.ifidPc := by
  cases h with
  | boot _ hi | redirected _ hi | refetch _ hi => exact .inl hi
  | seq _ hi | held _ hi => exact .inr hi

/-- Behind a reset nothing is in flight. -/
theorem inFlight_boot (imem dmem : Nat → Word) : InFlight imemDepth (boot imem dmem) :=
  ⟨.inl rfl, .inl rfl⟩

/-- ID/EX takes the instruction in IF/ID together with its address, or no control bit. -/
theorem inFlight_next (h : FrontInv imemDepth s) :
    InFlight imemDepth (s.next imemDepth dmemDepth x) where
  ifid := h.next.phase.ifid
  idex := by
    cases hi : s.issues x with
    | false => exact .inl (next_ctrl_of_not_issues hi)
    | true =>
      rcases h.phase.ifid with hz | hw
      · -- an empty IF/ID decodes to no control bit
        exact .inl (next_ctrl_of_ifidI_zero hz)
      · right
        rw [next_idex_of_issues hi, idexDin]
        exact ⟨s.uIfu.ifidPc, _, _, by rw [wordAt_next, ← hw]⟩

/-- What is in flight is a word of the program, in every reachable state. -/
theorem inFlight_of_reachable (h : Reachable imemDepth dmemDepth s) : InFlight imemDepth s := by
  cases h with
  | reset x s => rw [clk_reset]; exact inFlight_boot _ _
  | clk rstN x h =>
    cases rstN with
    | false => rw [clk_reset]; exact inFlight_boot _ _
    | true => exact inFlight_next (frontInv_of_reachable h)

/-- **Every instruction in flight has its own address.** Take any program, a reset of
    `k + 1` edges and any number `n` of cycles behind it. IF/ID holds the all-zero word or
    the word of the program at its address. ID/EX has no control bit, or it holds the
    decode of the word at some `p`, with `p + 4` and `p` plus the immediate. -/
theorem own_address (imemDepth dmemDepth : Nat) (xs₀ xs : Nat → Word) (s : RvCpu) (k n : Nat) :
    let t := after imemDepth dmemDepth xs₀ xs s k n
    let word (a : Word) := s.uIfu.uImem.memory (a.toNat / 4 % 2 ^ clog2 imemDepth)
    (t.uIfu.ifidI = 0 ∨ t.uIfu.ifidI = word t.uIfu.ifidPc) ∧
    (t.uIdu.idex.ctrl = {} ∨ ∃ p,
      t.uIdu.idex.pcPlus4 = p + 4 ∧
      t.uIdu.idex.pcPlusShimm = p + rvImmgen (word p) ∧
      t.uIdu.idex.rs1 = ifidRs1 (word p) ∧
      t.uIdu.idex.rs2 = ifidRs2 (word p) ∧
      t.uIdu.idex.rd = ifidRd (word p) ∧
      t.uIdu.idex.imm = rvImmgen (word p) ∧
      t.uIdu.idex.alucontrol = (word p).extractLsb' 30 1 ++ (word p).extractLsb' 12 3 ∧
      t.uIdu.idex.ctrl = rvDatapathCtrl (ifidOpcode (word p))) := by
  intro t word
  have hinv : InFlight imemDepth t := inFlight_of_reachable (reachable_after xs₀ xs s k n)
  have hword (a : Word) : t.wordAt imemDepth a = word a := by
    rw [wordAt_run, resetFor, run_reset, wordAt, Sram.wordAddr_eq]
    rfl
  refine ⟨?_, ?_⟩
  · rw [← hword]
    exact hinv.ifid
  -- a bubble, or a decoded word
  · rcases hinv.idex with hc | ⟨p, a, b, hidex⟩
    · exact .inl hc
    · rw [hword] at hidex
      right
      refine ⟨p, ?_⟩
      rw [hidex]
      exact ⟨rfl, BitVec.add_comm _ _, rfl, rfl, rfl, rfl, rfl, rfl⟩

/-- A jump to address 16 in a memory of three words. -/
def jumpOutProgram (a : Nat) : Word :=
  match a with
  | 0 => 0x0100006f -- jal x0, 16
  | _ => 0x00000013 -- nop

/-- The core executes the jump again, at word 4 modulo 4 and not modulo 3. -/
theorem ifid_jumpOutProgram :
    let t := after 3 8 (fun _ => 0) (fun _ => 0) (boot jumpOutProgram fun _ => 0) 0 5
    t.uIfu.ifidPc = 16 ∧ t.uIfu.ifidI ≠ 0 ∧
      t.uIfu.ifidI ≠ jumpOutProgram (t.uIfu.ifidPc.toNat / 4 % 3) := by
  decide

end URiscV.Hdl.RvCpu
