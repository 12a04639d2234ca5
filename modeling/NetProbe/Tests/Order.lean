import NetProbe.Lib.Simulation
import NetProbe.Tests.Runs

/-!
# The Order of the Tests

Each job makes an executor with a single worker, so that the tests of its file
run one after the other. This module follows the tests from the file to their
end. Executors and files go together by their numbers: a job makes its executor
and then looks for its file, and there is one job at a time.

Whatever a user does, an executor gets the tests of its own file in the order of
the document, and gets to them in that order, one at a time (`tests_in_order`).
A stop throws away the tests that wait, and the wait of the job then ends as if
all had been run: `TEST_COMPLETE` says no more than that the tests that have
begun are over. They are all of the file if no stop ever met a waiting test
(`complete_means_done`). As long as no wait is interrupted, the executors do not
overlap either (`one_test_at_a_time`); an interrupted job gives `TEST_RUN` back
while its test may still be running.

## Main definitions

* `testsOf`, `ConfigFile.tests`: The tests a document describes.
* `filesFound`: The files that the jobs of a run have found.
* `plan`: The tests meant for an executor.
* `handed`, `working`: The tests of the current executor.
* `KeepsTests`, `Patient`: A stop that meets no waiting test, a wait that is not
  interrupted.
* `Progress`: How far a job has come with its file.
* `Ordered`, `InOrder`: The invariant.

## Theorems

* `parse_testList`: Parsing yields the tests of the document.
* `startTest_ordered`: A statement of a job keeps the invariant.
* `step_inOrder`: So does any step.
* `tests_in_order`: Tests begin in the order of their file.
* `complete_means_done`: What `TEST_COMPLETE` says of the tests.
* `one_test_at_a_time`: No two tests run at once.
-/

namespace NetProbe

open Machine

/-- The tests that a document describes, in the order of the document. -/
def testsOf (root : Element) : List Test :=
  if root.getName = "test" then
    root.elements.filterMap (fun element => (TestConfig.configure element).toOption.join)
  else []

/-- The tests of what is found at a path. -/
def ConfigFile.tests : ConfigFile → List Test
  | .document root => testsOf root
  | .absent => []
  | .notAFile => []
  | .malformed => []

namespace TestConfig

theorem feed_testList {c c' : TestConfig} {elements : List Element}
    (h : Outcome.feed addTest c elements = .returned c') :
    c'.testList = c.testList ++
      elements.filterMap (fun element => (configure element).toOption.join) := by
  induction elements generalizing c with
  | nil =>
      rw [Outcome.feed_nil] at h
      rw [← Outcome.returned.inj h, List.filterMap_nil, List.append_nil]
  | cons element elements ih =>
      rw [Outcome.feed_cons] at h
      unfold addTest at h
      rcases hconfigure : configure element with e | test
      · rw [hconfigure] at h
        exact absurd h (by simp only [Outcome.bind_threw, reduceCtorEq, not_false_eq_true])
      · rw [hconfigure] at h
        rw [ih h, List.append_assoc]
        cases test with
        | none => rw [List.filterMap_cons_none (by rw [hconfigure]; rfl)]; rfl
        | some test => rw [List.filterMap_cons_some (by rw [hconfigure]; rfl)]; rfl

/-- What `parse` returns has the tests of the document. -/
theorem parse_testList {c c' : TestConfig} {root : Element} (hdoc : c.document = some root)
    (h : c.parse = .returned c') : c'.testList = testsOf root := by
  unfold parse at h
  unfold testsOf
  simp only [hdoc] at h
  split at h
  · rename_i hname
    rw [feed_testList h, if_pos hname, List.nil_append]
  · rename_i hname
    rw [← Outcome.returned.inj h, if_neg hname]

end TestConfig

namespace TestManager

/-- The file that a statement of a job finds. -/
def foundBy : Answer → List ConfigFile
  | .file file => [file]
  | .nothing => []
  | .timeout => []
  | .interrupted => []

def found : Label → List ConfigFile
  | .job _ answer => foundBy answer
  | .start _ => []
  | .submit _ => []
  | .stop => []
  | .stopNow => []
  | .pick _ => []
  | .begin _ _ => []
  | .finish _ _ => []

/-- The files that the jobs of a run have found, in the order of the run. -/
def filesFound (run : List Label) : List ConfigFile := run.flatMap found

/-- The tests meant for the `n`-th executor: those of the `n`-th file. -/
def plan (files : List ConfigFile) (n : Nat) : List Test :=
  (files[n]?.map ConfigFile.tests).getD []

/-- The tests of the last file. -/
def lastPlan (files : List ConfigFile) : List Test :=
  (files.getLast?.map ConfigFile.tests).getD []

/-- The tests handed to the current executor and not thrown away. -/
def handed (m : TestManager) : List Test := (m.executors.head?.map ThreadPool.accepted).getD []

/-- The tests that run on the current executor. -/
def working (m : TestManager) : List Test := (m.executors.head?.map ThreadPool.running).getD []

/-- A stop meets no test that waits. -/
def KeepsTests (m : TestManager) : Label → Prop
  | .stopNow => m.waiting = []
  | _ => True

/-- The wait of a job is not interrupted. -/
def Patient : Label → Prop
  | .job _ .interrupted => False
  | _ => True

instance (m : TestManager) : ∀ a, Decidable (m.KeepsTests a)
  | .stopNow => inferInstanceAs (Decidable (m.waiting = []))
  | .start _ | .submit _ | .job _ _ | .stop | .pick _ | .begin _ _ | .finish _ _ =>
      isTrue trivial

instance : ∀ a, Decidable (Patient a)
  | .job _ .interrupted => isFalse id
  | .job _ .nothing | .job _ (.file _) | .job _ .timeout => isTrue trivial
  | .start _ | .submit _ | .stop | .stopNow | .pick _ | .begin _ _ | .finish _ _ =>
      isTrue trivial

/-- Executor by executor, the newest first: what was handed to it is the
    beginning of its plan. -/
def InPlan (files : List ConfigFile) : List (ThreadPool Test) → Prop
  | [] => True
  | e :: old => e.accepted <+: plan files old.length ∧ InPlan files old

/-- The tests handed to the current executor are over. If none was thrown away,
    they are all tests of the file. -/
structure Done (kept : Prop) (files : List ConfigFile) (m : TestManager) : Prop where
  closed : m.closed = true
  working : m.working = []
  waiting : m.waiting = []
  all : kept → m.handed = lastPlan files

/-- How far a job at `pc` has come with its file. -/
def Progress (kept : Prop) (files : List ConfigFile) (m : TestManager) : JobPc → Prop
  | .load => files.length + 1 = m.executors.length
  | .parse => m.handed = [] ∧
      ∃ root, files.getLast? = some (.document root) ∧ m.mTestConfig.document = some root
  | .submit next => m.mTestConfig.testList = lastPlan files ∧
      (m.closed = false ∨ kept → m.handed = m.mTestConfig.testList.take next)
  | .shutdown => kept → m.handed = lastPlan files
  | .awaitTermination => kept → m.handed = lastPlan files
  | .changeToComplete => Done kept files m
  | _ => True

/-- A job at these statements has no test running. -/
def Early : JobPc → Prop
  | .queued => True
  | .changeToRun => True
  | .newExecutor => True
  | .load => True
  | .changeToIdle => True
  | .parse => True
  | .changeToComplete => True
  | _ => False

/-- Without an interrupt, tests run on the current executor only, and on that
    only while a job looks after it or has thrown. -/
structure Alone (m : TestManager) (pc : JobPc) : Prop where
  old : ∀ e ∈ m.executors.tail, e.running = []
  working : Early pc ∨ m.mTestState ≠ .run ∨ m.starting ≠ [] → m.working = []
  pc : pc ≠ .shutdownNow ∧ pc ≠ .changeToInterrupt

/-- The invariant, seen from a job at `pc`. `kept` says that no stop has thrown
    tests away, `patient` that no wait was interrupted. -/
structure Ordered (kept patient : Prop) (files : List ConfigFile) (m : TestManager)
    (pc : JobPc) : Prop where
  serial : ∀ e ∈ m.executors, e.Serial
  plan : InPlan files m.executors
  count : pc ≠ .load → files.length = m.executors.length
  progress : Progress kept files m pc
  done : m.mTestState = .complete → Done kept files m
  alone : patient → Alone m pc

/-- The invariant, seen from the job that has not ended, or from none. -/
structure InOrder (kept patient : Prop) (files : List ConfigFile) (m : TestManager) : Prop where
  jobs : ∀ job ∈ m.jobs, job.pc ≠ .ended → Ordered kept patient files m job.pc
  idle : (∀ job ∈ m.jobs, job.pc = .ended) → Ordered kept patient files m .ended

theorem handed_cons {m : TestManager} {e : ThreadPool Test} {old : List (ThreadPool Test)}
    (h : m.executors = e :: old) : m.handed = e.accepted := by
  unfold handed
  rw [h]
  rfl

theorem working_cons {m : TestManager} {e : ThreadPool Test} {old : List (ThreadPool Test)}
    (h : m.executors = e :: old) : m.working = e.running := by
  unfold working
  rw [h]
  rfl

/-- The last file is that of the current executor. -/
theorem plan_eq_lastPlan {files : List ConfigFile} {n : Nat} (h : files.length = n + 1) :
    plan files n = lastPlan files := by
  unfold plan lastPlan
  rw [List.getLast?_eq_getElem?, h, Nat.add_sub_cancel]

/-- A file more gives a plan to an executor that had none. -/
theorem plan_append (files : List ConfigFile) (file : ConfigFile) (n : Nat) :
    plan files n <+: plan (files ++ [file]) n := by
  by_cases hn : n < files.length
  · have hsame : plan (files ++ [file]) n = plan files n := by
      unfold plan
      rw [List.getElem?_append_left hn]
    exact hsame ▸ List.prefix_rfl
  · unfold plan
    rw [List.getElem?_eq_none (Nat.le_of_not_lt hn)]
    exact List.nil_prefix

theorem InPlan.append {files : List ConfigFile} {executors : List (ThreadPool Test)}
    (h : InPlan files executors) (file : ConfigFile) : InPlan (files ++ [file]) executors := by
  induction executors with
  | nil => trivial
  | cons e old ih => exact ⟨h.1.trans (plan_append files file old.length), ih h.2⟩

/-- An executor that has no more than before. -/
theorem InPlan.set {files : List ConfigFile} {executors : List (ThreadPool Test)} {k : Nat}
    {e e' : ThreadPool Test} (h : InPlan files executors) (hk : executors[k]? = some e)
    (hshorter : e'.accepted <+: e.accepted) : InPlan files (executors.set k e') := by
  induction executors generalizing k with
  | nil => exact absurd hk (by simp only [List.getElem?_nil, reduceCtorEq, not_false_eq_true])
  | cons e₁ old ih =>
      cases k with
      | zero =>
          simp only [List.getElem?_cons_zero, Option.some.injEq] at hk
          subst hk
          exact ⟨hshorter.trans h.1, h.2⟩
      | succ k =>
          rw [List.getElem?_cons_succ] at hk
          refine ⟨?_, ih h.2 hk⟩
          rw [List.length_set]
          exact h.1

/-- What an executor was handed, by the number of the executor. -/
theorem InPlan.executor {files : List ConfigFile} {m : TestManager} {n : Nat}
    {e : ThreadPool Test} (h : InPlan files m.executors) (he : m.executor n = some e) :
    e.accepted <+: TestManager.plan files n := by
  obtain ⟨hlt, hget⟩ := executor_eq_some_iff.mp he
  generalize m.executors = executors at h hlt hget
  induction executors with
  | nil => exact absurd hlt (Nat.not_lt_zero n)
  | cons e₁ old ih =>
      simp only [List.length_cons, Nat.add_sub_cancel] at hlt hget
      by_cases hn : n = old.length
      · rw [hn, Nat.sub_self, List.getElem?_cons_zero, Option.some.injEq] at hget
        rw [hn, ← hget]
        exact h.1
      · rw [show old.length - n = old.length - 1 - n + 1 by omega, List.getElem?_cons_succ] at hget
        exact ih h.2 (by omega) hget

/-- Whether the tests are over can be seen from the executors. -/
theorem Done.of_executors {kept : Prop} {files : List ConfigFile} {m m' : TestManager}
    (h : Done kept files m) (hexec : m'.executors = m.executors) : Done kept files m' := by
  obtain ⟨hclosed, hworking, hwaiting, hall⟩ := h
  refine ⟨?_, ?_, ?_, ?_⟩
  · unfold TestManager.closed
    rw [hexec]
    exact hclosed
  · unfold TestManager.working
    rw [hexec]
    exact hworking
  · unfold TestManager.waiting
    rw [hexec]
    exact hwaiting
  · unfold handed
    rw [hexec]
    exact hall

/-- A statement that leaves everything but the state alone. -/
theorem Ordered.move {kept patient : Prop} {files : List ConfigFile} {m : TestManager}
    {pc pc' : JobPc} (hm : Ordered kept patient files m pc) (state : TestState)
    (hpc : pc ≠ .load) (hprogress : Progress kept files m pc')
    (hdone : state = .complete → Done kept files m)
    (halone : patient → Alone (m.changeTestState state) pc') :
    Ordered kept patient files (m.changeTestState state) pc' := by
  refine ⟨hm.serial, hm.plan, fun _ => hm.count hpc, ?_, fun hstate => ?_, halone⟩
  · cases pc' with
    | changeToComplete => exact Done.of_executors hprogress rfl
    | _ => exact hprogress
  · exact (hdone hstate).of_executors rfl

/-- The job of a run in `TEST_RUN` goes on with the same executors. -/
theorem Alone.next {m : TestManager} {pc pc' : JobPc} (hm : Alone m pc)
    (hrun : m.mTestState = .run) (hstarting : m.starting = [])
    (hearly : Early pc' → m.working = []) (hpc : pc' ≠ .shutdownNow ∧ pc' ≠ .changeToInterrupt) :
    Alone m pc' :=
  ⟨hm.old, fun h => h.elim hearly (fun h => h.elim (absurd hrun) (absurd hstarting)), hpc⟩

/-- The statement before an executor has been used ends with a load. -/
theorem load_ordered {kept patient : Prop} {files : List ConfigFile} {m m' : TestManager}
    {filePath : Option String} {file : ConfigFile} {pc' : JobPc}
    (hm : Ordered kept patient files m .load) (hready : m.executors ≠ [])
    (hrun : m.mTestState = .run)
    (h : m.startTest filePath .load (.file file) = some (m', pc')) :
    Ordered kept patient (files ++ [file]) m' pc' := by
  have hcount : files.length + 1 = m.executors.length := hm.progress
  simp only [startTest, Option.some.injEq, Prod.mk.injEq] at h
  obtain ⟨rfl, rfl⟩ := h
  -- The executor had no plan, so it was handed nothing.
  have hnothing : m.handed = [] := by
    rcases hexec : m.executors with _ | ⟨e, old⟩
    · exact absurd hexec hready
    have hplan := hm.plan
    rw [hexec] at hplan hcount
    rw [List.length_cons, Nat.add_right_cancel_iff] at hcount
    have hnone : TestManager.plan files old.length = [] := by
      unfold TestManager.plan
      rw [List.getElem?_eq_none (Nat.le_of_eq hcount)]
      rfl
    rw [handed_cons hexec]
    exact List.prefix_nil.mp (hnone ▸ hplan.1)
  refine ⟨hm.serial, hm.plan.append file, fun _ => ?_, ?_, fun hstate => ?_, fun hpatient => ?_⟩
  · rw [List.length_append, List.length_singleton]
    exact hcount
  · split
    · rename_i hloaded
      refine ⟨hnothing, ?_⟩
      rcases filePath with _ | path
      · exact absurd hloaded Bool.false_ne_true
      cases file with
      | absent => exact absurd hloaded Bool.false_ne_true
      | notAFile => exact absurd hloaded Bool.false_ne_true
      | malformed => exact absurd hloaded Bool.false_ne_true
      | document root => exact ⟨root, List.getLast?_concat, rfl⟩
    · trivial
  · exact absurd (hrun.symm.trans hstate) (by simp only [reduceCtorEq, not_false_eq_true])
  · have halone := hm.alone hpatient
    refine ⟨halone.old, fun _ => halone.working (.inl trivial), ?_⟩
    split
    · exact ⟨by simp only [ne_eq, reduceCtorEq, not_false_eq_true],
        by simp only [ne_eq, reduceCtorEq, not_false_eq_true]⟩
    · exact ⟨by simp only [ne_eq, reduceCtorEq, not_false_eq_true],
        by simp only [ne_eq, reduceCtorEq, not_false_eq_true]⟩

theorem parse_ordered {kept patient : Prop} {files : List ConfigFile} {m m' : TestManager}
    {filePath : Option String} {pc' : JobPc} (hm : Ordered kept patient files m .parse)
    (hrun : m.mTestState = .run)
    (h : m.startTest filePath .parse .nothing = some (m', pc')) :
    Ordered kept patient files m' pc' := by
  obtain ⟨hnothing, root, hlast, hdoc⟩ := hm.progress
  have hcount := hm.count (by simp only [ne_eq, reduceCtorEq, not_false_eq_true])
  simp only [startTest, Option.some.injEq, Prod.mk.injEq] at h
  obtain ⟨rfl, rfl⟩ := h
  refine ⟨hm.serial, hm.plan, fun _ => hcount, ?_, fun hstate => ?_, fun hpatient => ?_⟩
  · rcases hparse : m.mTestConfig.parse with c | ⟨e, c⟩
    · refine ⟨?_, fun _ => hnothing⟩
      rw [Outcome.state_returned, TestConfig.parse_testList hdoc hparse]
      unfold lastPlan
      rw [hlast]
      rfl
    · trivial
  · exact absurd (hrun.symm.trans hstate) (by simp only [reduceCtorEq, not_false_eq_true])
  · have halone := hm.alone hpatient
    refine ⟨halone.old, fun _ => halone.working (.inl trivial), ?_⟩
    split
    · exact ⟨by simp only [ne_eq, reduceCtorEq, not_false_eq_true],
        by simp only [ne_eq, reduceCtorEq, not_false_eq_true]⟩
    · exact ⟨by simp only [ne_eq, reduceCtorEq, not_false_eq_true],
        by simp only [ne_eq, reduceCtorEq, not_false_eq_true]⟩

/-- An open executor takes the next test, a closed one ends the job. -/
theorem submit_ordered {kept patient : Prop} {files : List ConfigFile} {m m' : TestManager}
    {filePath : Option String} {next : Nat} {pc' : JobPc}
    (hm : Ordered kept patient files m (.submit next)) (hready : m.executors ≠ [])
    (hrun : m.mTestState = .run) (hstarting : m.starting = [])
    (h : m.startTest filePath (.submit next) .nothing = some (m', pc')) :
    Ordered kept patient files m' pc' := by
  obtain ⟨hlist, hhanded⟩ := hm.progress
  have hcount := hm.count (by simp only [ne_eq, reduceCtorEq, not_false_eq_true])
  have hnotDone : ∀ {P : Prop}, m.mTestState = .complete → P := fun hstate =>
    absurd (hrun.symm.trans hstate) (by simp only [reduceCtorEq, not_false_eq_true])
  unfold startTest at h
  rcases htest : m.mTestConfig.testList[next]? with _ | test
  -- The loop is over.
  · simp only [htest, Option.some.injEq, Prod.mk.injEq] at h
    obtain ⟨rfl, rfl⟩ := h
    refine ⟨hm.serial, hm.plan, fun _ => hcount, fun hkept => ?_, hnotDone, fun hpatient => ?_⟩
    · rw [hhanded (.inr hkept), List.take_of_length_le (List.getElem?_eq_none_iff.mp htest), hlist]
    · exact (hm.alone hpatient).next hrun hstarting False.elim
        ⟨by simp only [ne_eq, reduceCtorEq, not_false_eq_true],
          by simp only [ne_eq, reduceCtorEq, not_false_eq_true]⟩
  rcases hexec : m.executors with _ | ⟨e, old⟩
  · exact absurd hexec hready
  simp only [htest, submitTest, hexec] at h
  rcases hsubmit : e.submit test with _ | e'
  -- The executor is closed.
  · simp only [hsubmit, Option.map_none, Option.some.injEq, Prod.mk.injEq] at h
    obtain ⟨rfl, rfl⟩ := h
    refine ⟨hm.serial, hm.plan, fun _ => hcount, trivial, hnotDone, fun hpatient => ?_⟩
    exact (hm.alone hpatient).next hrun hstarting False.elim
      ⟨by simp only [ne_eq, reduceCtorEq, not_false_eq_true],
        by simp only [ne_eq, reduceCtorEq, not_false_eq_true]⟩
  · simp only [hsubmit, Option.map_some, Option.some.injEq, Prod.mk.injEq] at h
    obtain ⟨rfl, rfl⟩ := h
    have hserial := hm.serial
    have hplan := hm.plan
    rw [hexec] at hserial hplan hcount
    rw [List.length_cons] at hcount
    obtain ⟨hserial', haccepted⟩ := (hserial e List.mem_cons_self).submit hsubmit
    obtain ⟨hopen, -, -⟩ := ThreadPool.outstanding_submit hsubmit
    -- An open executor has all tests so far, and now one more.
    have hmore : e'.accepted = m.mTestConfig.testList.take (next + 1) := by
      have hso := hhanded (.inl ((closed_cons hexec).trans hopen))
      rw [handed_cons hexec] at hso
      rw [haccepted, hso, List.take_add_one, htest]
      rfl
    refine ⟨?_, ⟨?_, hplan.2⟩, fun _ => hcount, ⟨hlist, fun _ => ?_⟩, hnotDone,
      fun hpatient => ?_⟩
    · intro e₁ he₁
      rcases List.mem_cons.mp he₁ with rfl | he₁
      · exact hserial'
      · exact hserial e₁ (List.mem_cons_of_mem e he₁)
    · rw [hmore, plan_eq_lastPlan hcount, hlist]
      exact List.take_prefix _ _
    · rw [handed_cons rfl]
      exact hmore
    · have halone := hm.alone hpatient
      have hold := halone.old
      rw [hexec] at hold
      refine ⟨hold, fun hfree => ?_, by simp only [ne_eq, reduceCtorEq, not_false_eq_true],
        by simp only [ne_eq, reduceCtorEq, not_false_eq_true]⟩
      rcases hfree with hearly | hstate | hmore
      · exact hearly.elim
      · exact absurd hrun hstate
      · exact absurd hstarting hmore

/-- A statement of the job keeps the invariant, seen from that job. -/
theorem startTest_ordered {kept patient : Prop} {files : List ConfigFile} {m m' : TestManager}
    {filePath : Option String} {pc pc' : JobPc} {answer : Answer}
    (hm : Ordered kept patient files m pc) (hready : m.Prepared pc) (hrun : m.mTestState = .run)
    (hstarting : m.starting = []) (hwaits : patient → answer ≠ .interrupted)
    (h : m.startTest filePath pc answer = some (m', pc')) :
    Ordered kept patient (files ++ foundBy answer) m' pc' := by
  have hcopy := h
  have hnotDone : ∀ {P : Prop}, m.mTestState = .complete → P := fun hstate =>
    absurd (hrun.symm.trans hstate) (by simp only [reduceCtorEq, not_false_eq_true])
  unfold startTest at h
  split at h
  · simp only [Option.some.injEq, Prod.mk.injEq] at h
    obtain ⟨rfl, rfl⟩ := h
    rw [foundBy, List.append_nil]
    refine ⟨hm.serial, hm.plan, fun _ => hm.count (by decide), trivial, hnotDone, fun hp => ?_⟩
    exact (hm.alone hp).next hrun hstarting
      (fun _ => (hm.alone hp).working (.inl trivial)) (by decide)
  · simp only [Option.some.injEq, Prod.mk.injEq] at h
    obtain ⟨rfl, rfl⟩ := h
    rw [foundBy, List.append_nil]
    refine hm.move .run (by decide) trivial
      (fun hstate => absurd hstate (by simp only [reduceCtorEq, not_false_eq_true])) (fun hp => ?_)
    exact ⟨(hm.alone hp).old, fun _ => (hm.alone hp).working (.inl trivial), by decide⟩
  -- Nothing runs on the executor that joins the old ones.
  · simp only [Option.some.injEq, Prod.mk.injEq] at h
    obtain ⟨rfl, rfl⟩ := h
    rw [foundBy, List.append_nil]
    refine ⟨?_, ⟨List.nil_prefix, hm.plan⟩, fun hpc => absurd rfl hpc, ?_, ?_, fun hp => ?_⟩
    · intro e he
      rcases List.mem_cons.mp he with rfl | he
      · exact ThreadPool.serial_newFixed
      · exact hm.serial e he
    · exact congrArg Nat.succ (hm.count (by decide))
    · exact hnotDone
    · have halone := hm.alone hp
      refine ⟨fun e he => ?_, fun _ => rfl, by decide⟩
      rcases hexec : m.executors with _ | ⟨e₁, old⟩
      · rw [List.tail_cons, hexec] at he
        exact absurd he List.not_mem_nil
      · have hold := halone.old
        rw [List.tail_cons, hexec] at he
        rw [hexec] at hold
        rcases List.mem_cons.mp he with rfl | he
        · exact (working_cons hexec).symm.trans (halone.working (.inl trivial))
        · exact hold e he
  · exact load_ordered hm hready hrun hcopy
  · simp only [Option.some.injEq, Prod.mk.injEq] at h
    obtain ⟨rfl, rfl⟩ := h
    rw [foundBy, List.append_nil]
    refine hm.move .idle (by decide) trivial
      (fun hstate => absurd hstate (by simp only [reduceCtorEq, not_false_eq_true])) (fun hp => ?_)
    exact ⟨(hm.alone hp).old, fun _ => (hm.alone hp).working (.inl trivial), by decide⟩
  · rw [foundBy, List.append_nil]
    exact parse_ordered hm hrun hcopy
  · rw [foundBy, List.append_nil]
    exact submit_ordered hm hready hrun hstarting hcopy
  · rw [foundBy, List.append_nil]
    split at h
    · rename_i hexec
      exact absurd hexec hready
    rename_i e old hexec
    simp only [Option.some.injEq, Prod.mk.injEq] at h
    obtain ⟨rfl, rfl⟩ := h
    have hserial := hm.serial
    have hplan := hm.plan
    have hcount := hm.count (by decide)
    have hprogress : kept → m.handed = lastPlan files := hm.progress
    rw [hexec] at hserial hplan hcount
    rw [handed_cons hexec] at hprogress
    refine ⟨?_, hplan, fun _ => hcount, hprogress, hnotDone, fun hp => ?_⟩
    · intro e₁ he₁
      rcases List.mem_cons.mp he₁ with rfl | he₁
      · exact (hserial e List.mem_cons_self).shutdown.1
      · exact hserial e₁ (List.mem_cons_of_mem e he₁)
    · have hold := (hm.alone hp).old
      rw [hexec] at hold
      refine ⟨hold, fun hfree => ?_, by decide⟩
      exact hfree.elim False.elim (fun hfree => hfree.elim (absurd hrun) (absurd hstarting))
  -- The wait ends when nothing runs or waits any more.
  · split at h
    · rename_i hexec
      exact absurd hexec hready
    · rename_i e old hexec
      rw [foundBy, List.append_nil]
      split at h
      · rename_i hterm
        simp only [Option.some.injEq, Prod.mk.injEq] at h
        obtain ⟨rfl, rfl⟩ := h
        simp only [ThreadPool.isTerminated, Bool.and_eq_true, List.isEmpty_iff] at hterm
        obtain ⟨⟨hclosed, hqueue⟩, hidle⟩ := hterm
        have hworking : m.working = [] := (working_cons hexec).trans hidle
        refine ⟨hm.serial, hm.plan, fun _ => hm.count (by decide), ?_, hnotDone, fun hp => ?_⟩
        · exact ⟨(closed_cons hexec).trans hclosed, hworking,
            (waiting_cons hexec).trans hqueue, hm.progress⟩
        · exact (hm.alone hp).next hrun hstarting (fun _ => hworking) (by decide)
      · exact absurd h (by simp only [reduceCtorEq, not_false_eq_true])
    · simp only [Option.some.injEq, Prod.mk.injEq] at h
      obtain ⟨rfl, rfl⟩ := h
      rw [foundBy, List.append_nil]
      exact hm
    · simp only [Option.some.injEq, Prod.mk.injEq] at h
      obtain ⟨rfl, rfl⟩ := h
      rw [foundBy, List.append_nil]
      exact ⟨hm.serial, hm.plan, fun _ => hm.count (by decide), trivial, hnotDone,
        fun hp => absurd rfl (hwaits hp)⟩
    · exact absurd h (by simp only [reduceCtorEq, not_false_eq_true])
  · simp only [Option.some.injEq, Prod.mk.injEq] at h
    obtain ⟨rfl, rfl⟩ := h
    rw [foundBy, List.append_nil]
    refine hm.move .complete (by decide) trivial (fun _ => hm.progress) (fun hp => ?_)
    exact ⟨(hm.alone hp).old, fun _ => (hm.alone hp).working (.inl trivial), by decide⟩
  · rw [foundBy, List.append_nil]
    split at h
    · rename_i hexec
      exact absurd hexec hready
    rename_i e old hexec
    simp only [Option.some.injEq, Prod.mk.injEq] at h
    obtain ⟨rfl, rfl⟩ := h
    have hserial := hm.serial
    have hplan := hm.plan
    have hcount := hm.count (by decide)
    rw [hexec] at hserial hplan hcount
    obtain ⟨hserial', hshorter⟩ := (hserial e List.mem_cons_self).shutdownNow
    refine ⟨?_, ⟨hshorter.trans hplan.1, hplan.2⟩, fun _ => hcount, trivial, hnotDone,
      fun hp => absurd rfl (hm.alone hp).pc.1⟩
    intro e₁ he₁
    rcases List.mem_cons.mp he₁ with rfl | he₁
    · exact hserial'
    · exact hserial e₁ (List.mem_cons_of_mem e he₁)
  · simp only [Option.some.injEq, Prod.mk.injEq] at h
    obtain ⟨rfl, rfl⟩ := h
    rw [foundBy, List.append_nil]
    exact hm.move .interrupt (by decide) trivial
      (fun hstate => absurd hstate (by simp only [reduceCtorEq, not_false_eq_true]))
      (fun hp => absurd rfl (hm.alone hp).pc.2)
  · exact absurd h (by simp only [reduceCtorEq, not_false_eq_true])

/-- Of the jobs in `TEST_RUN` all but one have ended, and nobody is about to
    start another one. -/
theorem active_alone {m : TestManager} {i : Nat} {job : Job} (hsound : m.Sound)
    (hi : m.jobs[i]? = some job) (hactive : job.pc ≠ .ended) :
    m.mTestState = .run ∧ m.starting = [] ∧
      ∀ j job', j ≠ i → m.jobs[j]? = some job' → job'.pc = .ended := by
  have hpos := countP_isActive_pos (List.mem_of_getElem? hi) hactive
  have hone := hsound.2.1
  refine ⟨hsound.2.2 ?_, ?_, fun j job' hne hj => ?_⟩
  · unfold pending
    omega
  · unfold pending at hone
    exact List.length_eq_zero_iff.mp (by omega)
  · by_contra hjob'
    exact hne (active_unique hone hj hi hjob' hactive)

theorem job_inOrder {kept patient : Prop} {files : List ConfigFile} {m m' : TestManager} {i : Nat}
    {answer : Answer} (hsound : m.Sound) (hm : InOrder kept patient files m)
    (hwaits : patient → Patient (.job i answer)) (h : m.step (.job i answer) = some m') :
    InOrder kept patient (files ++ foundBy answer) m' := by
  obtain ⟨job, m₁, pc', hi, hrun, rfl⟩ := job_step h
  have hmem := List.mem_of_getElem? hi
  have hactive : job.pc ≠ .ended := by
    intro hended
    rw [hended] at hrun
    unfold startTest at hrun
    exact absurd hrun (by simp only [reduceCtorEq, not_false_eq_true])
  obtain ⟨hstate, hstarting, hothers⟩ := active_alone hsound hi hactive
  have hordered := startTest_ordered (hm.jobs job hmem hactive) (hsound.1 job hmem hactive) hstate
    hstarting (fun hp heq => by
      have hpatient := hwaits hp
      rw [heq] at hpatient
      exact hpatient) hrun
  -- The jobs are no part of what the invariant says of this job.
  have hmoved : Ordered kept patient (files ++ foundBy answer)
      { m₁ with jobs := m.jobs.set i { job with pc := pc' } } pc' := by
    obtain ⟨hserial, hplan, hcount, hprogress, hdone, halone⟩ := hordered
    refine ⟨hserial, hplan, hcount, ?_, fun hs => (hdone hs).of_executors rfl,
      fun hp => ⟨(halone hp).old, (halone hp).working, (halone hp).pc⟩⟩
    cases pc' with
    | changeToComplete => exact Done.of_executors hprogress rfl
    | _ => exact hprogress
  refine ⟨fun job' hjob' hpc => ?_, fun hall => ?_⟩
  · rcases mem_set_cases hjob' with rfl | ⟨j, hne, hj⟩
    · exact hmoved
    · exact absurd (hothers j job' hne hj) hpc
  · have hlt := (List.getElem?_eq_some_iff.mp hi).1
    have hended : pc' = .ended :=
      hall { job with pc := pc' } (List.mem_of_getElem? (List.getElem?_set_self hlt))
    rw [hended] at hmoved ⊢
    exact hmoved

/-- What a job has come to is kept if its tests are. -/
theorem Progress.mono {kept : Prop} {files : List ConfigFile} {m m' : TestManager} {pc : JobPc}
    (h : Progress kept files m pc) (hlen : m'.executors.length = m.executors.length)
    (hconfig : m'.mTestConfig = m.mTestConfig)
    (hhanded : m.handed = [] ∨ kept ∨ m'.closed = false → m'.handed = m.handed)
    (hclosed : m'.closed = false → m.closed = false)
    (hdone : Done kept files m → Done kept files m') : Progress kept files m' pc := by
  unfold Progress at h ⊢
  cases pc with
  | load => exact h.trans hlen.symm
  | parse =>
      obtain ⟨hnothing, root, hlast, hdoc⟩ := h
      exact ⟨(hhanded (.inl hnothing)).trans hnothing, root, hlast, hconfig ▸ hdoc⟩
  | submit next =>
      obtain ⟨hlist, hso⟩ := h
      refine ⟨hconfig ▸ hlist, fun hopen => ?_⟩
      rw [hhanded (.inr hopen.symm), hconfig]
      exact hso (hopen.imp_left hclosed)
  | shutdown => exact fun hkept => (hhanded (.inr (.inl hkept))).trans (h hkept)
  | awaitTermination => exact fun hkept => (hhanded (.inr (.inl hkept))).trans (h hkept)
  | changeToComplete => exact hdone h
  | _ => trivial

/-- A step of a caller leaves the executors and the configuration alone. -/
theorem Ordered.mono {kept patient : Prop} {files : List ConfigFile} {m m' : TestManager}
    {pc : JobPc} (hm : Ordered kept patient files m pc) (hexec : m'.executors = m.executors)
    (hconfig : m'.mTestConfig = m.mTestConfig)
    (hstate : m'.mTestState = .complete → m.mTestState = .complete)
    (hfree : m'.mTestState ≠ .run ∨ m'.starting ≠ [] →
      m.mTestState ≠ .run ∨ m.starting ≠ []) : Ordered kept patient files m' pc := by
  obtain ⟨hserial, hplan, hcount, hprogress, hdone, halone⟩ := hm
  have hhanded : m'.handed = m.handed := by
    unfold handed
    rw [hexec]
  have hclosed : m'.closed = m.closed := by
    unfold closed
    rw [hexec]
  have hworking : m'.working = m.working := by
    unfold working
    rw [hexec]
  refine ⟨hexec ▸ hserial, hexec ▸ hplan, hexec ▸ hcount, ?_,
    fun hs => (hdone (hstate hs)).of_executors hexec, fun hp => ⟨?_, fun hquiet => ?_, ?_⟩⟩
  · exact hprogress.mono (congrArg List.length hexec) hconfig (fun _ => hhanded)
      (fun h => hclosed.symm.trans h) (fun h => h.of_executors hexec)
  · rw [hexec]
    exact (halone hp).old
  · rw [hworking]
    exact (halone hp).working (hquiet.imp_right hfree)
  · exact (halone hp).pc

/-- A stop keeps the first tests of the current executor. -/
theorem stopNow_ordered {kept patient : Prop} {files : List ConfigFile} {m : TestManager}
    {pc : JobPc} {e : ThreadPool Test} {old : List (ThreadPool Test)} {calls : Nat}
    (hm : Ordered kept patient files m pc) (hexec : m.executors = e :: old)
    (hkeeps : kept → m.waiting = []) :
    Ordered kept patient files
      { m with executors := e.shutdownNow :: old, stopping := calls } pc := by
  obtain ⟨hserial, hplan, hcount, hprogress, hdone, halone⟩ := hm
  rw [hexec] at hserial hplan hcount
  obtain ⟨hserial', hshorter⟩ := (hserial e List.mem_cons_self).shutdownNow
  -- Tests are gone only if some were waiting.
  have hhanded : m.handed = [] ∨ kept ∨ true = false →
      e.shutdownNow.accepted = m.handed := by
    rw [handed_cons hexec]
    rintro (hnothing | hkept | hopen)
    · rw [hnothing] at hshorter ⊢
      exact List.prefix_nil.mp hshorter
    · have hqueue := hkeeps hkept
      rw [waiting_cons hexec] at hqueue
      unfold ThreadPool.accepted ThreadPool.shutdownNow
      rw [hqueue]
    · exact absurd hopen (by simp only [reduceCtorEq, not_false_eq_true])
  have hdone' : Done kept files m →
      Done kept files { m with executors := e.shutdownNow :: old, stopping := calls } := by
    intro hd
    have hworking := hd.working
    rw [working_cons hexec] at hworking
    exact ⟨rfl, hworking, rfl, fun hkept => (hhanded (.inr (.inl hkept))).trans (hd.all hkept)⟩
  refine ⟨?_, ⟨hshorter.trans hplan.1, hplan.2⟩, hcount, ?_, fun hs => hdone' (hdone hs),
    fun hp => ?_⟩
  · intro e₁ he₁
    rcases List.mem_cons.mp he₁ with rfl | he₁
    · exact hserial'
    · exact hserial e₁ (List.mem_cons_of_mem e he₁)
  · exact hprogress.mono (by rw [hexec]; rfl) rfl hhanded
      (fun hopen => absurd (show true = false from hopen) (by decide)) hdone'
  · have hold := (halone hp).old
    have hworking := (halone hp).working
    rw [hexec] at hold
    rw [working_cons hexec] at hworking
    exact ⟨hold, hworking, (halone hp).pc⟩

/-- The worker of an executor takes a test, begins it or finishes it. -/
theorem worked_ordered {kept patient : Prop} {files : List ConfigFile} {m : TestManager}
    {pc : JobPc} {k : Nat} {e e' : ThreadPool Test} (hm : Ordered kept patient files m pc)
    (hold : ∀ e ∈ m.executors.tail, e.queue = [])
    (hquiet : Early pc ∨ m.mTestState ≠ .run ∨ m.starting ≠ [] → m.waiting = [])
    (hk : m.executors[k]? = some e)
    (hnew : e.pick = some e' ∨ (∃ test, e.begin test = some e') ∨
      ∃ test ∈ e.running, e' = e.finish test) :
    Ordered kept patient files { m with executors := m.executors.set k e' } pc := by
  obtain ⟨hserial, hplan, hcount, hprogress, hdone, halone⟩ := hm
  have hmem := List.mem_of_getElem? hk
  obtain ⟨hserial', haccepted⟩ : e'.Serial ∧ e'.accepted = e.accepted := by
    rcases hnew with hpick | ⟨test, hbegin⟩ | ⟨test, htest, rfl⟩
    · exact (hserial e hmem).pick hpick
    · exact (hserial e hmem).begin hbegin
    · exact (hserial e hmem).finish htest
  have hshut : e'.isShutdown = e.isShutdown := by
    rcases hnew with hpick | ⟨test, hbegin⟩ | ⟨test, htest, rfl⟩
    · exact (ThreadPool.outstanding_pick hpick).1
    · rw [← (ThreadPool.begin_eq_some_iff.mp hbegin).2]
    · rfl
  -- A worker with nothing to take and nothing to finish does not move.
  have hmoves : e.queue = [] → e.running = [] → False := by
    intro hqueue hrunning
    rcases hnew with hpick | ⟨test, hbegin⟩ | ⟨test, htest, -⟩
    · exact queue_ne_nil_of_pick hpick hqueue
    · rw [ThreadPool.begin_eq_some_iff, hrunning] at hbegin
      exact absurd hbegin.1 (Nat.not_lt_zero _)
    · rw [hrunning] at htest
      exact absurd htest List.not_mem_nil
  have hserials : ∀ e₁ ∈ m.executors.set k e', e₁.Serial := by
    intro e₁ he₁
    rcases List.mem_or_eq_of_mem_set he₁ with he₁ | rfl
    · exact hserial e₁ he₁
    · exact hserial'
  have hplan' : InPlan files (m.executors.set k e') :=
    hplan.set hk (haccepted ▸ List.prefix_rfl)
  rcases hexec : m.executors with _ | ⟨e₁, old⟩
  · rw [hexec] at hk
    exact absurd hk (by simp only [List.getElem?_nil, reduceCtorEq, not_false_eq_true])
  rw [hexec] at hk hold hserials hplan' hcount
  rcases k with _ | k
  · simp only [List.getElem?_cons_zero, Option.some.injEq] at hk
    subst hk
    have hdone' : Done kept files m →
        Done kept files { m with executors := (e₁ :: old).set 0 e' } := fun hd =>
      (hmoves ((waiting_cons hexec).symm.trans hd.waiting)
        ((working_cons hexec).symm.trans hd.working)).elim
    refine ⟨hserials, hplan', hcount, ?_, fun hs => hdone' (hdone hs), fun hp => ?_⟩
    · refine hprogress.mono (by rw [hexec]; rfl) rfl (fun _ => ?_) (fun hopen => ?_) hdone'
      · rw [handed_cons hexec]
        exact haccepted
      · rw [closed_cons hexec, ← hshut]
        exact hopen
    · have htail := (halone hp).old
      rw [hexec] at htail
      refine ⟨htail, fun hfree => ?_, (halone hp).pc⟩
      exact (hmoves ((waiting_cons hexec).symm.trans (hquiet hfree))
        ((working_cons hexec).symm.trans ((halone hp).working hfree))).elim
  · rw [List.getElem?_cons_succ] at hk
    -- The current executor is another one.
    have hdone' : Done kept files m →
        Done kept files { m with executors := (e₁ :: old).set (k + 1) e' } := by
      rintro ⟨hclosed, hworking, hwaiting, hall⟩
      rw [closed_cons hexec] at hclosed
      rw [working_cons hexec] at hworking
      rw [waiting_cons hexec] at hwaiting
      rw [handed_cons hexec] at hall
      exact ⟨hclosed, hworking, hwaiting, hall⟩
    refine ⟨hserials, hplan', ?_, ?_, fun hs => hdone' (hdone hs), fun hp => ?_⟩
    · rw [List.length_set]
      exact hcount
    · refine hprogress.mono (by rw [hexec]; exact List.length_set) rfl (fun _ => ?_)
        (fun hopen => ?_) hdone'
      · rw [handed_cons hexec]
        rfl
      · rw [closed_cons hexec]
        exact hopen
    · have htail := (halone hp).old
      rw [hexec] at htail
      exact (hmoves (hold e (List.mem_of_getElem? hk)) (htail e (List.mem_of_getElem? hk))).elim

/-- Nothing waits where nothing is to run. -/
theorem waiting_of_early {m : TestManager} {pc : JobPc} (hsettled : m.Settled pc)
    (hearly : Early pc) : m.waiting = [] := by
  cases pc with
  | submit next => exact hearly.elim
  | shutdown => exact hearly.elim
  | awaitTermination => exact hearly.elim
  | shutdownNow => exact hearly.elim
  | _ => exact hsettled

/-- Where no test may run, none waits. -/
theorem Tidy.quiet {m : TestManager} (hsound : m.Sound) (hm : m.Tidy) {pc : JobPc}
    (hpc : (∃ job ∈ m.jobs, job.pc = pc ∧ pc ≠ .ended) ∨ pc = .ended)
    (h : Early pc ∨ m.mTestState ≠ .run ∨ m.starting ≠ []) : m.waiting = [] := by
  rcases h with hearly | hfree
  · rcases hpc with ⟨job, hmem, rfl, hactive⟩ | rfl
    · exact waiting_of_early (hm.jobs job hmem hactive) hearly
    · exact hearly.elim
  -- Otherwise there is no job.
  · refine hm.idle (fun job hmem => ?_)
    by_contra hactive
    obtain ⟨i, hi⟩ := List.mem_iff_getElem?.mp hmem
    obtain ⟨hstate, hstarting, -⟩ := active_alone hsound hi hactive
    exact hfree.elim (fun h => h hstate) (fun h => h hstarting)

/-- A step that moves no job keeps the invariant if it does so for every place a
    job can be at. -/
theorem InOrder.mono {kept patient : Prop} {files : List ConfigFile} {m m' : TestManager}
    (hm : InOrder kept patient files m) (hjobs : m'.jobs = m.jobs)
    (hordered : ∀ pc, (∃ job ∈ m.jobs, job.pc = pc ∧ pc ≠ .ended) ∨ pc = .ended →
      Ordered kept patient files m pc → Ordered kept patient files m' pc) :
    InOrder kept patient files m' := by
  refine ⟨fun job hjob hpc => ?_, fun hall => ?_⟩
  · rw [hjobs] at hjob
    exact hordered job.pc (.inl ⟨job, hjob, rfl, hpc⟩) (hm.jobs job hjob hpc)
  · rw [hjobs] at hall
    exact hordered .ended (.inr rfl) (hm.idle hall)

theorem step_inOrder {kept patient : Prop} {files : List ConfigFile} {m m' : TestManager}
    {a : Label} (hsound : m.Sound) (htidy : m.Tidy) (hm : InOrder kept patient files m)
    (hkeeps : kept → m.KeepsTests a) (hwaits : patient → Patient a) (h : m.step a = some m') :
    InOrder kept patient (files ++ found a) m' := by
  cases a with
  | start filePath =>
      rw [found, List.append_nil]
      simp only [step] at h
      split at h
      · rw [← Option.some.inj h]
        exact hm
      · rename_i hfree
        rw [← Option.some.inj h]
        refine hm.mono rfl (fun pc _ hordered => hordered.mono rfl rfl ?_ ?_)
        · exact fun hs => absurd hs (by simp only [reduceCtorEq, not_false_eq_true])
        · exact fun _ => .inl hfree
  | submit i =>
      rw [found, List.append_nil]
      simp only [step] at h
      split at h
      · exact absurd h (by simp only [reduceCtorEq, not_false_eq_true])
      rename_i filePath hi
      have hmem : filePath ∈ m.starting := List.mem_of_getElem? hi
      have hidle : ∀ job ∈ m.jobs, job.pc = .ended := by
        intro job hjob
        by_contra hactive
        obtain ⟨j, hj⟩ := List.mem_iff_getElem?.mp hjob
        rw [(active_alone hsound hj hactive).2.1] at hmem
        exact absurd hmem List.not_mem_nil
      obtain ⟨hserial, hplan, hcount, -, hdone, halone⟩ := hm.idle hidle
      rw [← Option.some.inj h]
      refine ⟨fun job hjob hactive => ?_, fun hall => ?_⟩
      · rcases List.mem_append.mp hjob with hjob | hjob
        · exact absurd (hidle job hjob) hactive
        rw [List.mem_singleton.mp hjob]
        refine ⟨hserial, hplan, fun _ => hcount (by decide), trivial,
          fun hs => (hdone hs).of_executors rfl, fun hp => ⟨(halone hp).old, fun _ => ?_, ?_⟩⟩
        · exact (halone hp).working (.inr (.inr (List.ne_nil_of_mem hmem)))
        · exact ⟨by simp only [ne_eq, reduceCtorEq, not_false_eq_true],
            by simp only [ne_eq, reduceCtorEq, not_false_eq_true]⟩
      · have hqueued := hall ⟨filePath, .queued⟩
          (List.mem_append_right m.jobs (List.mem_singleton_self _))
        exact absurd hqueued (by simp only [reduceCtorEq, not_false_eq_true])
  | job i answer => exact job_inOrder hsound hm hwaits h
  | stop =>
      rw [found, List.append_nil]
      simp only [step] at h
      rw [← Option.some.inj h]
      split
      · exact hm
      · exact hm.mono rfl (fun pc _ hordered => hordered.mono rfl rfl id id)
  | stopNow =>
      rw [found, List.append_nil]
      obtain ⟨calls, e, old, hexec, rfl⟩ := stopNow_step h
      exact hm.mono rfl (fun pc _ hordered => stopNow_ordered hordered hexec hkeeps)
  | pick k =>
      rw [found, List.append_nil]
      obtain ⟨e, e', hk, hpick, rfl⟩ := pick_step h
      exact hm.mono rfl (fun pc hpc hordered =>
        worked_ordered hordered htidy.old (htidy.quiet hsound hpc) hk (.inl hpick))
  | begin k test =>
      rw [found, List.append_nil]
      obtain ⟨e, e', hk, hbegin, rfl⟩ := begin_step h
      exact hm.mono rfl (fun pc hpc hordered =>
        worked_ordered hordered htidy.old (htidy.quiet hsound hpc) hk
          (.inr (.inl ⟨test, hbegin⟩)))
  | finish k test =>
      rw [found, List.append_nil]
      obtain ⟨e, hk, hrunning, -, rfl⟩ := finish_step h
      exact hm.mono rfl (fun pc hpc hordered =>
        worked_ordered hordered htidy.old (htidy.quiet hsound hpc) hk
          (.inr (.inr ⟨test, hrunning, rfl⟩)))

theorem fresh_inOrder (kept patient : Prop) : InOrder kept patient [] fresh := by
  refine ⟨fun _ hjob => absurd hjob List.not_mem_nil, fun _ => ⟨?_, trivial, fun _ => rfl,
    trivial, fun hs => ?_, fun _ => ?_⟩⟩
  · exact fun _ he => absurd he List.not_mem_nil
  · exact absurd hs (by simp only [fresh, reduceCtorEq, not_false_eq_true])
  · exact ⟨fun _ he => absurd he List.not_mem_nil, fun _ => rfl, by decide⟩

/-- The invariant, wherever a run leads. -/
theorem reached_inOrder (kept patient : Prop) {run : List Label} {m : TestManager}
    (h : exec step fresh run = some m)
    (hkeeps : kept → Along step KeepsTests fresh run) (hwaits : patient → ∀ a ∈ run, Patient a) :
    InOrder kept patient (filesFound run) m := by
  have halong : Along step (fun m a => (kept → m.KeepsTests a) ∧ (patient → Patient a)) fresh run :=
    along_and (along_imp hkeeps) (along_of_forall step fresh (fun a ha hp => hwaits hp a ha))
  have hreached := exec_records step
    (fun m a => (kept → m.KeepsTests a) ∧ (patient → Patient a)) found
    (fun files m => m.Sound ∧ m.Tidy ∧ InOrder kept patient files m)
    (fun files m a m' hm hC hstep => ⟨step_sound hm.1 hstep, step_tidy hm.1 hm.2.1 hstep,
      step_inOrder hm.1 hm.2.1 hm.2.2 hC.1 hC.2 hstep⟩)
    run [] fresh m ⟨fresh_sound, fresh_tidy, fresh_inOrder kept patient⟩ halong h
  rw [List.nil_append] at hreached
  exact hreached.2.2

/-- One job that has not ended, or none: either sees the whole. -/
theorem InOrder.ordered {kept patient : Prop} {files : List ConfigFile} {m : TestManager}
    (hm : InOrder kept patient files m) : ∃ pc, Ordered kept patient files m pc := by
  by_cases hidle : ∀ job ∈ m.jobs, job.pc = .ended
  · exact ⟨_, hm.idle hidle⟩
  · obtain ⟨job, hjob⟩ := not_forall.mp hidle
    obtain ⟨hmem, hactive⟩ := Classical.not_imp.mp hjob
    exact ⟨_, hm.jobs job hmem hactive⟩

/-- A configuration with two voice tests. -/
def twoVoices : ConfigFile :=
  .document (.mk "test" [] [.mk "voice" [] [], .mk "voice" [] [.mk "count" "2".toList []]])

/-- The first test of `twoVoices`. -/
def fiveCalls : Test :=
  .voice { number := "10086".toList, callTime := 10, count := 5, interval := 5 }

/-- A run of `twoVoices` up to the wait of its job. -/
def upToWait : List Label :=
  upToParse twoVoices ++
    [.job 0 .nothing, .job 0 .nothing, .job 0 .nothing, .job 0 .nothing, .job 0 .nothing]

/-- Every executor has been handed the first tests of its file, in the order of
    the document, has completed the first of these, runs at most one, the next,
    and holds the others back in their order. -/
theorem tests_in_order (run : List Label) (m : TestManager) (h : exec step fresh run = some m)
    (n : Nat) (e : ThreadPool Test) (he : m.executor n = some e) :
    e.running.length ≤ 1 ∧
      e.completed ++ e.running ++ e.queue <+: plan (filesFound run) n := by
  obtain ⟨pc, hordered⟩ := (reached_inOrder False False h False.elim False.elim).ordered
  have hserial := hordered.serial e (List.mem_of_getElem? (executor_eq_some_iff.mp he).2)
  exact ⟨hserial.running.trans hserial.workers, hordered.plan.executor he⟩

/-- While the first of two tests runs, the second one waits. -/
theorem tests_in_order_two_tests :
    ∃ m e, exec step fresh upToWait = some m ∧ m.executor 0 = some e ∧ e.running.length = 1 ∧
      e.queue.length = 1 ∧ e.completed ++ e.running ++ e.queue <+: plan [twoVoices] 0 := by
  have hrun : ∃ m ∈ exec step fresh upToWait,
      ∃ e ∈ m.executor 0, e.running.length = 1 ∧ e.queue.length = 1 := by
    decide +kernel
  obtain ⟨m, hm, e, he, hrunning, hqueue⟩ := hrun
  exact ⟨m, e, hm, he, hrunning, hqueue, (tests_in_order upToWait m hm 0 e he).2⟩

/-- In `TEST_COMPLETE` the newest executor has terminated, and the tests it has
    completed are the first tests of its file, in their order. They are all of
    them if no stop of the run met a waiting test. -/
theorem complete_means_done (run : List Label) (m : TestManager)
    (h : exec step fresh run = some m) (hstate : m.mTestState = .complete) :
    ∃ (e : ThreadPool Test) (file : ConfigFile), m.executors.head? = some e ∧
      (filesFound run).getLast? = some file ∧ e.isTerminated = true ∧
      e.completed <+: file.tests ∧
      (Along step KeepsTests fresh run → e.completed = file.tests) := by
  -- No job is left in this state.
  have hidle : ∀ job ∈ m.jobs, job.pc = .ended := by
    intro job hmem
    by_contra hactive
    obtain ⟨i, hi⟩ := List.mem_iff_getElem?.mp hmem
    have hrun := (active_alone (reached h).1 hi hactive).1
    exact absurd (hstate.symm.trans hrun) (by simp only [reduceCtorEq, not_false_eq_true])
  have hordered :=
    (reached_inOrder (Along step KeepsTests fresh run) False h id False.elim).idle hidle
  have hcount := hordered.count (by decide)
  have hplan := hordered.plan
  obtain ⟨hclosed, hworking, hwaiting, hall⟩ := hordered.done hstate
  rcases hexec : m.executors with _ | ⟨e, old⟩
  · unfold closed at hclosed
    rw [hexec] at hclosed
    exact absurd hclosed Bool.false_ne_true
  rw [hexec] at hplan hcount
  rw [closed_cons hexec] at hclosed
  rw [working_cons hexec] at hworking
  rw [waiting_cons hexec] at hwaiting
  -- What was handed to the executor has completed.
  have hcompleted : e.accepted = e.completed := by
    unfold ThreadPool.accepted
    rw [hworking, hwaiting, List.append_nil, List.append_nil]
  obtain ⟨file, hfile⟩ : ∃ file, (filesFound run).getLast? = some file := by
    rw [List.getLast?_eq_getElem?, hcount, List.length_cons, Nat.add_sub_cancel]
    exact ⟨_, List.getElem?_eq_getElem (by rw [hcount, List.length_cons]; omega)⟩
  have hlast : lastPlan (filesFound run) = file.tests := by
    unfold lastPlan
    rw [hfile]
    rfl
  refine ⟨e, file, rfl, hfile, ?_, ?_, fun hkeeps => ?_⟩
  · unfold ThreadPool.isTerminated
    rw [hclosed, hworking, hwaiting]
    rfl
  · rw [← hcompleted, ← hlast, ← plan_eq_lastPlan hcount]
    exact hplan.1
  · rw [← hcompleted, ← hlast, ← handed_cons hexec]
    exact hall hkeeps

/-- The rest of a run that nobody stops. -/
def bothRun : List Label :=
  upToWait ++ [.begin 0 fiveCalls, .finish 0 fiveCalls, .job 0 .timeout, .pick 0,
    .begin 0 twoCalls, .finish 0 twoCalls, .job 0 .nothing, .job 0 .nothing]

/-- Both tests have been run in `TEST_COMPLETE`. -/
theorem complete_means_done_two_tests :
    ∃ m e, exec step fresh bothRun = some m ∧ m.executors.head? = some e ∧
      e.completed = twoVoices.tests := by
  have hrun : ∃ m ∈ exec step fresh bothRun, m.mTestState = .complete := by
    decide +kernel
  obtain ⟨m, hm, hstate⟩ := hrun
  obtain ⟨e, file, he, hfile, -, -, hall⟩ := complete_means_done bothRun m hm hstate
  have hlast : (filesFound bothRun).getLast? = some twoVoices := rfl
  rw [hlast, Option.some.injEq] at hfile
  rw [← hfile] at hall
  exact ⟨m, e, hm, he, hall (by decide +kernel)⟩

/-- If no wait is interrupted, no two tests run at once, on whatever
    executors. -/
theorem one_test_at_a_time (run : List Label) (m : TestManager)
    (h : exec step fresh run = some m) (hwaits : ∀ a ∈ run, Patient a) :
    (m.executors.flatMap ThreadPool.running).length ≤ 1 := by
  obtain ⟨pc, hordered⟩ := (reached_inOrder False True h False.elim (fun _ => hwaits)).ordered
  have halone := hordered.alone trivial
  rcases hexec : m.executors with _ | ⟨e, old⟩
  · exact Nat.zero_le 1
  have hserial := hordered.serial
  have hold := halone.old
  rw [hexec] at hserial hold
  have hnone : old.flatMap ThreadPool.running = [] :=
    List.flatMap_eq_nil_iff.mpr hold
  have hone := hserial e List.mem_cons_self
  rw [List.flatMap_cons, hnone, List.append_nil]
  exact hone.running.trans hone.workers

/-- A run that is stopped over its first test, and the beginning of another
    one. -/
def restarted : List Label :=
  upToWait ++ [.begin 0 fiveCalls, .stop, .stopNow, .finish 0 fiveCalls, .job 0 .nothing,
    .job 0 .nothing, .start (some "test_default.xml"), .submit 0, .job 1 .nothing,
    .job 1 .nothing, .job 1 .nothing, .job 1 (.file twoVoices), .job 1 .nothing,
    .job 1 .nothing]

/-- The first run is over when the first test of the second one begins. -/
theorem one_test_at_a_time_restarted :
    ∃ m, exec step fresh restarted = some m ∧ m.executors.length = 2 ∧
      (m.executors.flatMap ThreadPool.running).length ≤ 1 := by
  have hrun : ∃ m ∈ exec step fresh restarted, m.executors.length = 2 := by
    decide +kernel
  obtain ⟨m, hm, hlength⟩ := hrun
  exact ⟨m, hm, hlength, one_test_at_a_time restarted m hm (by decide +kernel)⟩

end TestManager

end NetProbe
