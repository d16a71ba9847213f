import URiscV.Rv32i.Program

/-!
# The programs of `tb/cpu/asm/tests` that compute something

`two_sum` of `test_gem5_twosum.s`, and the whole of `test_gem5_insertionsort.s` and
`test_gem5_fibonacci.s`, line by line. The exit syscall at their end is no instruction of
the subset: the interpreter stops there.
-/

namespace URiscV.Asm

open Rv32i (Instr Line Word)
open Rv32i.Instr (addi andi slli srai)

/-! ## `test_gem5_twosum.s` -/

namespace TwoSum

inductive Label where
  | two_sum | ts_outer | ts_inner | ts_next_i | ts_found | ts_notfound
deriving DecidableEq, Repr

/-- `two_sum`: array in `x10`, length in `x11`, target in `x12`. -/
def lines : List (Line Label) :=
  [ .label .two_sum
  , .instr (addi 13 0 0)                      -- i = 0
  , .label .ts_outer
  , .branch .bge 13 11 .ts_notfound           -- if i >= N, no solution
  , .instr (slli 5 13 2)
  , .instr (.op .add 5 10 5)
  , .instr (.lw 6 5 0)                        -- arr[i]
  , .instr (.op .sub 7 12 6)                  -- complement
  , .instr (addi 14 13 1)                     -- j = i + 1
  , .label .ts_inner
  , .branch .bge 14 11 .ts_next_i             -- if j >= N, try next i
  , .instr (slli 8 14 2)
  , .instr (.op .add 8 10 8)
  , .instr (.lw 9 8 0)                        -- arr[j]
  , .branch .beq 9 7 .ts_found
  , .instr (addi 14 14 1)                     -- j++
  , .jal 0 .ts_inner
  , .label .ts_next_i
  , .instr (addi 13 13 1)                     -- i++
  , .jal 0 .ts_outer
  , .label .ts_found
  , .instr (addi 10 13 0)
  , .instr (addi 11 14 0)
  , .instr (.jalr 0 1 0)
  , .label .ts_notfound
  , .instr (addi 10 0 (-1))
  , .instr (addi 11 0 (-1))
  , .instr (.jalr 0 1 0) ]

def code : List Instr := Rv32i.assemble lines

end TwoSum

/-! ## `test_gem5_insertionsort.s` -/

namespace InsertionSort

inductive Label where
  | _start | fill_loop | fill_done | sort_outer | sort_inner | sort_insert | sort_done
  | verify_loop | verify_pass | verify_fail | exit
deriving DecidableEq, Repr

/-- The program up to its syscall; `N` is the constant of the program, 32 there. -/
def lines (N : Word) : List (Line Label) :=
  [ .label ._start
  , .instr (addi 5 0 N)
  , .instr (slli 6 5 2)
  , .instr (.op .sub 2 2 6)                   -- sp -= N*4
  , .instr (.lui 7 (3 <<< 12))
  , .instr (addi 7 7 57)                      -- seed
  , .instr (addi 8 0 0)                       -- i = 0
  , .label .fill_loop
  , .branch .bge 8 5 .fill_done
  , .instr (slli 9 7 13)
  , .instr (.op .xor 7 7 9)
  , .instr (srai 9 7 17)
  , .instr (.op .xor 7 7 9)
  , .instr (slli 9 7 5)
  , .instr (.op .xor 7 7 9)
  , .instr (andi 10 7 0x3FF)
  , .instr (slli 11 8 2)
  , .instr (.op .add 11 2 11)
  , .instr (.sw 11 10 0)                      -- arr[i] = val
  , .instr (addi 8 8 1)
  , .jal 0 .fill_loop
  , .label .fill_done
  , .instr (addi 18 0 1)                      -- i = 1
  , .label .sort_outer
  , .branch .bge 18 5 .sort_done
  , .instr (slli 19 18 2)
  , .instr (.op .add 20 2 19)
  , .instr (.lw 21 20 0)                      -- key = arr[i]
  , .instr (addi 22 18 (-1))                  -- j = i - 1
  , .label .sort_inner
  , .branch .blt 22 0 .sort_insert
  , .instr (slli 23 22 2)
  , .instr (.op .add 24 2 23)
  , .instr (.lw 25 24 0)                      -- arr[j]
  , .branch .bge 21 25 .sort_insert
  , .instr (.sw 24 25 4)                      -- arr[j+1] = arr[j]
  , .instr (addi 22 22 (-1))
  , .jal 0 .sort_inner
  , .label .sort_insert
  , .instr (addi 23 22 1)
  , .instr (slli 23 23 2)
  , .instr (.op .add 24 2 23)
  , .instr (.sw 24 21 0)                      -- arr[j+1] = key
  , .instr (addi 18 18 1)
  , .jal 0 .sort_outer
  , .label .sort_done
  , .instr (addi 26 0 0)                      -- k = 0
  , .instr (addi 27 5 (-1))
  , .label .verify_loop
  , .branch .bge 26 27 .verify_pass
  , .instr (slli 28 26 2)
  , .instr (.op .add 29 2 28)
  , .instr (.lw 30 29 0)
  , .instr (.lw 31 29 4)
  , .branch .blt 31 30 .verify_fail
  , .instr (addi 26 26 1)
  , .jal 0 .verify_loop
  , .label .verify_pass
  , .instr (addi 10 0 0)
  , .jal 0 .exit
  , .label .verify_fail
  , .instr (addi 10 0 1)
  , .label .exit
  , .instr (.op .add 2 2 6)                   -- sp += N*4
  , .instr (addi 17 0 93) ]

def code (N : Word) : List Instr := Rv32i.assemble (lines N)

end InsertionSort

/-! ## `test_gem5_fibonacci.s` -/

namespace Fibonacci

inductive Label where
  | _start | fib_loop | fib_done
deriving DecidableEq, Repr

/-- The program up to its syscall; `N` is 20 there. -/
def lines (N : Word) : List (Line Label) :=
  [ .label ._start
  , .instr (addi 5 0 N)
  , .instr (slli 6 5 2)
  , .instr (.op .sub 2 2 6)
  , .instr (addi 10 0 0)                      -- fib(n-2)
  , .instr (addi 11 0 1)                      -- fib(n-1)
  , .instr (.sw 2 10 0)
  , .instr (.sw 2 11 4)
  , .instr (addi 12 0 2)                      -- i = 2
  , .label .fib_loop
  , .branch .bge 12 5 .fib_done
  , .instr (.op .add 13 10 11)
  , .instr (slli 14 12 2)
  , .instr (.op .add 15 2 14)
  , .instr (.sw 15 13 0)                      -- fib[i]
  , .instr (addi 10 11 0)
  , .instr (addi 11 13 0)
  , .instr (addi 12 12 1)
  , .jal 0 .fib_loop
  , .label .fib_done
  , .instr (addi 10 11 0)
  , .instr (.op .add 2 2 6)
  , .instr (addi 17 0 93)
  , .instr (addi 10 0 0) ]

def code (N : Word) : List Instr := Rv32i.assemble (lines N)

end Fibonacci

end URiscV.Asm
