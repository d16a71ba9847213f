import URiscV.ForStd.Lines

/-!
# `scripts/run`

`run_test` builds and simulates one test and raises an error if anything went wrong;
single-test mode and regression mode turn that into an exit status and a summary.

`Host` is what the script sees of the machine: the files that are there, and what the
programs it runs return. A path is the list of its components. What the script prints
along the way (`emit`) is left out, nothing reads it.
-/

namespace URiscV.Scripts

/-- A path from the root. -/
abbrev Path := List String

def Path.text (p : Path) : String := "/" ++ "/".intercalate p

/-- How `find_tb_file` found a testbench. -/
inductive TestStyle where
  | svh | sv
deriving DecidableEq, Repr

def TestStyle.ext : TestStyle → String
  | .svh => ".svh"
  | .sv => ".sv"

/-- `subprocess.CompletedProcess`. -/
structure CompletedProcess where
  returncode : Int
  stdout : String
  stderr : String
deriving DecidableEq, Repr

/-- The machine during one call of `run_test`. -/
structure Host where
  repoRoot : Path
  /-- Directory and style of the testbench of a test. -/
  findTbFile : String → Option (Path × TestStyle)
  isFile : Path → Bool
  isDir : Path → Bool
  /-- `os.access(…, os.X_OK)`. -/
  isExecutable : Path → Bool
  /-- The first variable of a filelist that `expand_vars` does not know. -/
  unknownVar : Path → Option String
  /-- `is_uvm_test`. -/
  isUvmTest : Path → Bool
  /-- `resolve_uvm_home() is not None`. -/
  uvmHome : Bool
  /-- Return code of `assemble`. -/
  assembleRc : Int
  /-- Return code of `verilator`. -/
  compileRc : Int
  /-- The simulation. -/
  sim : CompletedProcess

/-- How `run_test` ends when it does not return. -/
inductive Raised where
  | runtimeError (msg : String)
  | systemExit (msg : String)
deriving DecidableEq, Repr

/-- `if cond: raise RuntimeError(msg)`. -/
def raiseIf (cond : Bool) (msg : String) : Except Raised Unit :=
  if cond then .error (.runtimeError msg) else .ok ()

/-- No error is raised. -/
@[simp] theorem raiseIf_false (msg : String) : raiseIf false msg = .ok () := rfl

/-- The error is raised. -/
@[simp] theorem raiseIf_true (msg : String) : raiseIf true msg = .error (.runtimeError msg) := rfl

section RunTest

variable (h : Host) (testname : String)

/-- The source filelist of a test: its own or the default one. -/
def resolveFilelist (tbDir : Path) : Except Raised Path :=
  let perTestF := tbDir ++ [testname ++ ".f"]
  let defaultF := h.repoRoot ++ ["hdl", "cpu", "top", "cpu.f"]
  if h.isFile perTestF then .ok perTestF
  else if h.isFile defaultF then .ok defaultF
  else .error (.runtimeError ("no filelist found for '" ++ testname ++ "'.\n  Looked for: " ++
    perTestF.text ++ "\n  Fallback  : " ++ defaultF.text))

/-- `expand_vars` on every line of the filelist. -/
def expandVars (srcF : Path) : Except Raised Unit :=
  match h.unknownVar srcF with
  | some key => .error (.systemExit ("Unknown variable $" ++ key ++ " in filelist"))
  | none => .ok ()

/-- `run_test` up to the simulation: find, assemble, wrap and compile the test. -/
def build (runDir : Path) (trace : Bool) : Except Raised Unit :=
  match h.findTbFile testname with
  | none => .error (.runtimeError ("could not find '" ++ testname ++ ".svh' or '" ++ testname ++
      ".sv' under " ++ h.repoRoot.text ++ "/tb"))
  | some (tbDir, style) => do
    let workDir : Path := runDir ++ ["work" ++ if trace then "_trace" else ""]
    let asmFile : Path := tbDir ++ [testname ++ ".s"]
    raiseIf (h.isFile asmFile && h.assembleRc != 0) ("Assembly failed for " ++ asmFile.text)
    -- the wrapper of a test in the new style
    let envDir : Path := tbDir.dropLast ++ ["env"]
    let tmplFile : Path := tbDir.dropLast ++ ["template", "bringup_wrapper.sv.tmpl"]
    raiseIf (style == .svh && !h.isDir envDir) ("env dir not found: " ++ envDir.text)
    raiseIf (style == .svh && !h.isFile tmplFile) ("wrapper template not found: " ++ tmplFile.text)
    let srcF ← resolveFilelist h testname tbDir
    expandVars h srcF
    let uvm := style == .sv && h.isUvmTest (tbDir ++ [testname ++ ".sv"])
    raiseIf (uvm && !h.uvmHome) ("UVM_HOME not set and lib/uvm not found.  " ++
      "Source env.sh or set UVM_HOME before running UVM tests.")
    raiseIf (h.compileRc != 0)
      ("Verilator compilation failed (exit " ++ toString h.compileRc ++ ")")
    let simBin : Path := workDir ++ ["V" ++ testname]
    raiseIf (!h.isExecutable simBin) ("compiled binary not found: " ++ simBin.text)

/-- The verdict of `run_test` on a simulation: its exit status, and the word `FAIL` in
    what it printed. -/
def verdict (sim : CompletedProcess) : Except Raised Unit := do
  raiseIf (sim.returncode != 0)
    ("Simulation exited with non-zero status (" ++ toString sim.returncode ++ ")")
  raiseIf (decide (Lines.Occurs "FAIL" sim.stdout)) "Simulation reported FAIL"

/-- `run_test`. -/
def runTest (runDir : Path) (trace : Bool) : Except Raised Unit := do
  build h testname runDir trace
  verdict h.sim

end RunTest

/-! ## Modes -/

/-- Single-test mode: the exit message, if the script does not end normally. -/
def singleTest (h : Host) (testname : String) (trace : Bool) : Except String Unit :=
  match runTest h testname (h.repoRoot ++ ["rundir", testname]) trace with
  | .ok () => .ok ()
  | .error (.runtimeError msg) => .error ("ERROR: " ++ msg)
  | .error (.systemExit msg) => .error msg

/-- What regression mode records for a test. -/
inductive Outcome where
  | pass | fail
deriving DecidableEq, Repr

/-- `run_one`. Only a `RuntimeError` is caught. -/
def runOne (h : Host) (regressDir : Path) (trace : Bool) (testname : String) :
    Except String (String × Outcome) :=
  match runTest h testname (regressDir ++ [testname]) trace with
  | .ok () => .ok (testname, .pass)
  | .error (.runtimeError _) => .ok (testname, .fail)
  | .error (.systemExit msg) => .error msg

/-- `dict(outcome_list)`: the last entry of a name counts. -/
def resultOf (outcomes : List (String × Outcome)) (t : String) : Option Outcome :=
  (outcomes.reverse.find? fun o => o.1 == t).map (·.2)

/-- The summary of a regression, or the exit message when a test failed. -/
def summary (tests : List String) (outcomes : List (String × Outcome)) : Except String String :=
  let failed := tests.filter fun t => resultOf outcomes t == some .fail
  if failed.isEmpty then .ok ("\nAll " ++ toString tests.length ++ " tests passed.")
  else .error ("\n" ++ toString failed.length ++ "/" ++ toString tests.length ++ " tests FAILED")

/-- Regression mode over the tests of `listFile`, each with the machine its run sees. -/
def regression (listFile regressDir : Path) (trace : Bool) (runs : List (String × Host)) :
    Except String String := do
  if runs.isEmpty then .error ("ERROR: no tests found in " ++ listFile.text)
  let outcomes ← runs.mapM fun r => runOne r.2 regressDir trace r.1
  summary (runs.map (·.1)) outcomes

end URiscV.Scripts
