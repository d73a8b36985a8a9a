import RangeCalc.Proofs.Eval.Locality
import RangeCalc.Proofs.Run.Concatenation

/-!
# Names without a value

A name can be told to have a value before a program is run: it has one where a lambda around it has
it as a parameter, and where an earlier statement declares it. In a program in which that is true of
every occurrence of a name (`Program.Scoped`), no name is ever found without a value. In any other
program, the name that is reported is one to blame: it is free in the expression of the statement
that fails, and no statement before that one declares it.

The first of these follows from the second. For the second, only a name that is looked up can be the
cause (`Expr.free_of_raises`), no check has such a fault, and the wording of a fault tells a name
without a value from all other causes (`Fault.eq_undefined_of_message`). The global frame has the
names that have been declared, no more and no fewer (`Run.names_execute`).

* `Run.exists_failing`: the statement that a run fails in;
* `Run.undefined_mem_eventsFrom`: the names that are reported to have no value.
-/

namespace RangeCalc

open Loop

/-! ## Programs whose names all have values -/

/-- Every name in an expression is a parameter of a lambda around it, or one of those given. -/
def Expr.Scoped : Expr → List Text → Prop
  | number _, _ => True
  | ident name, names => name ∈ names
  | negate operand, names => operand.Scoped names
  | binary left _ right, names => left.Scoped names ∧ right.Scoped names
  | range first last, names => first.Scoped names ∧ last.Scoped names
  | map source param body, names => source.Scoped names ∧ body.Scoped (param :: names)
  | reduce source neutral param₁ param₂ body, names =>
    source.Scoped names ∧ neutral.Scoped names ∧ body.Scoped (param₂ :: param₁ :: names)

/-- The name that a statement declares, if it declares one. -/
def Stmt.declares? : Stmt → Option Text
  | var name _ => some name
  | _ => none

/-- The names that the statements of a program declare, in order. -/
def Program.declared (program : Program) : List Text := program.filterMap Stmt.declares?

theorem Program.declared_cons (stmt : Stmt) (program : Program) :
    Program.declared (stmt :: program) = stmt.declares?.toList ++ program.declared := by
  rw [declared, List.filterMap_cons]
  cases stmt.declares? <;> rfl

/-- Every name in a program is a parameter of a lambda around it, declared by an earlier statement,
or one of those given. -/
def Program.Scoped : Program → List Text → Prop
  | [], _ => True
  | stmt :: program, names =>
    (∀ e ∈ stmt.expr?, e.Scoped names) ∧ Scoped program (stmt.declares?.toList ++ names)

/-- What is needed of the body of a lambda, behind its parameters. -/
theorem forall_mem_filter_iff {params names free : List Text} :
    (∀ name ∈ free.filter (· ∉ params), name ∈ names) ↔ ∀ name ∈ free, name ∈ params ++ names := by
  refine forall_congr' fun name => ?_
  rw [List.mem_filter, List.mem_append, decide_eq_true_iff, and_imp, ← or_iff_not_imp_left]

/-- The names of an expression that need a value from outside are the free ones. -/
theorem Expr.scoped_iff {e : Expr} {names : List Text} :
    e.Scoped names ↔ ∀ name ∈ e.free, name ∈ names := by
  induction e generalizing names with
  | number => exact ⟨fun _ => List.forall_mem_nil _, fun _ => trivial⟩
  | ident name => rw [Scoped, free, List.forall_mem_singleton]
  | negate operand ih => exact ih
  | binary left op right ihl ihr => rw [Scoped, free, List.forall_mem_append, ihl, ihr]
  | range first last ihf ihl => rw [Scoped, free, List.forall_mem_append, ihf, ihl]
  | map source param body ihs ihb =>
    rw [Scoped, free, List.forall_mem_append, ihs, ihb, forall_mem_filter_iff]
    rfl
  | reduce source neutral param₁ param₂ body ihs ihn ihb =>
    rw [Scoped, free, List.forall_mem_append, List.forall_mem_append, ihs, ihn, ihb,
      forall_mem_filter_iff]
    rfl

instance (e : Expr) (names : List Text) : Decidable (e.Scoped names) :=
  decidable_of_iff (e.free.all names.contains) <| by
    simp only [List.all_eq_true, List.contains_iff_mem, Expr.scoped_iff]

instance Program.decidableScoped : (program : Program) → (names : List Text) →
    Decidable (program.Scoped names)
  | [], _ => .isTrue trivial
  | stmt :: program, names =>
    have := decidableScoped program (stmt.declares?.toList ++ names)
    inferInstanceAs (Decidable (_ ∧ _))

/-- In a scoped program, the free names of a statement are declared before it. -/
theorem Program.Scoped.mem_of_free {before later : Program} {stmt : Stmt} {names : List Text}
    (h : Program.Scoped (before ++ stmt :: later) names) {e : Expr}
    (evaluated : stmt.expr? = some e) {name : Text} (free : name ∈ e.free) :
    name ∈ before.declared ∨ name ∈ names := by
  induction before generalizing names with
  | nil => exact .inr (Expr.scoped_iff.1 (h.1 e evaluated) name free)
  | cons first before ih =>
    rw [declared_cons, List.mem_append, or_assoc]
    rcases ih h.2 with declared | mem
    · exact .inr (.inl declared)
    · exact (List.mem_append.1 mem).imp_right .inr

/-! ## Faults of names and faults of checks -/

section Checks

variable {name : Text}

/-- No check has the fault of a name without a value. -/
theorem applyOperator_ne_undefined (op : Text) (left right : Value) :
    applyOperator op left right ≠ .error (.undefined name) := by
  rw [applyOperator.eq_def]
  split
  · split <;> simp
  · simp

theorem rangeBetween_ne_undefined (first last : Value) :
    rangeBetween first last ≠ .error (.undefined name) := by
  rw [rangeBetween.eq_def]
  split
  · split
    · split <;> simp
    · simp
  · simp

theorem requireSequence_ne_undefined (combinator : Combinator) (value : Value) :
    requireSequence combinator value ≠ .error (.undefined name) := by
  cases value <;> exact nofun

theorem requireNeutral_ne_undefined (value : Value) :
    requireNeutral value ≠ .error (.undefined name) := by
  cases value <;> exact nofun

theorem requireNumber_ne_undefined (body : Expr) (result : Value) :
    requireNumber body result ≠ .error (.undefined name) := by
  cases result <;> exact nofun

theorem requireElement_ne_undefined (body : Expr) (result : Value) :
    requireElement body result ≠ .error (.undefined name) := by
  intro h
  rcases Result.bind_eq_error.1 h with refused | ⟨value, -, h⟩
  · exact requireNumber_ne_undefined body result refused
  · split at h <;> cases h

end Checks

section Calls

variable {call : Value → Value → Except Fault Value} {raises : Value → Value → Fault → Prop}
  {fault : Fault}

/-- What a fold raises, a call of the lambda raises. -/
theorem exists_of_foldRaises {accumulated : Value} {elements : List Float}
    (h : FoldRaises call raises accumulated elements fault) : ∃ a b, raises a b fault := by
  induction elements generalizing accumulated with
  | nil => exact h.elim
  | cons element elements ih =>
    rcases h with here | ⟨result, -, later⟩
    · exact ⟨_, _, here⟩
    · exact ih later

/-- What a merge tree raises, a call of the lambda raises. -/
theorem MergeTree.exists_of_raises {t : MergeTree} (h : t.Raises call raises fault) :
    ∃ a b, raises a b fault := by
  induction t with
  | leaf => exact h.elim
  | node left right ihl ihr =>
    rcases h with h | h | ⟨a, b, -, -, here⟩
    · exact ihl h
    · exact ihr h
    · exact ⟨a, b, here⟩

end Calls

/-- A name of the body of a lambda without a value behind the parameters is free outside and has no
value there. -/
theorem Expr.free_of_overlay {body : Expr} {frame : Frame} {scope : Scope} {name : Text}
    (h : name ∈ body.free ∧ Scope.get? (frame :: scope) name = none) :
    name ∈ body.free.filter (· ∉ frame.map Prod.fst) ∧ scope.get? name = none := by
  obtain ⟨free, undefined⟩ := h
  rw [Scope.get?_cons, Option.or_eq_none_iff, Frame.lookup_eq_none_iff] at undefined
  exact ⟨List.mem_filter.2 ⟨free, decide_eq_true undefined.1⟩, undefined.2⟩

/-- An expression raises the fault of a name without a value only for a name that is free in it, and
that has no value in the scope. -/
theorem Expr.free_of_raises {e : Expr} {scope : Scope} {name : Text}
    (h : e.Raises scope (.undefined name)) : name ∈ e.free ∧ scope.get? name = none := by
  induction e generalizing scope with
  | number => exact h.elim
  | ident other =>
    rw [Raises, Scope.get] at h
    cases found : scope.get? other with
    | some value => simp [found] at h
    | none =>
      rw [found] at h
      cases h
      exact ⟨List.mem_singleton_self _, found⟩
  | negate operand ih => exact ih h
  | binary left op right ihl ihr =>
    rcases h with h | h | ⟨a, b, -, -, refused⟩
    · exact (ihl h).imp_left (List.mem_append_left _)
    · exact (ihr h).imp_left (List.mem_append_right _)
    · exact absurd refused (applyOperator_ne_undefined op a b)
  | range first last ihf ihl =>
    rcases h with h | h | ⟨a, b, -, -, refused⟩
    · exact (ihf h).imp_left (List.mem_append_left _)
    · exact (ihl h).imp_left (List.mem_append_right _)
    · exact absurd refused (rangeBetween_ne_undefined a b)
  | map source param body ihs ihb =>
    rcases h with h | ⟨s, -, refused | ⟨elements, -, element, -, h | ⟨result, -, refused⟩⟩⟩
    · exact (ihs h).imp_left (List.mem_append_left _)
    · exact absurd refused (requireSequence_ne_undefined .map s)
    · exact (free_of_overlay (ihb h)).imp_left (List.mem_append_right _)
    · exact absurd refused (requireElement_ne_undefined body result)
  | reduce source neutral param₁ param₂ body ihs ihn ihb =>
    rcases h with h | h | ⟨s, n, -, -, refused | ⟨elements, -, refused | ⟨start, -, h⟩⟩⟩
    · exact (ihs h).imp_left (List.mem_append_left _)
    · exact (ihn h).imp_left fun free => List.mem_append_right _ (List.mem_append_left _ free)
    · exact absurd refused (requireSequence_ne_undefined .reduce s)
    · exact absurd refused (requireNeutral_ne_undefined n)
    · -- Fold or merge tree, it is some call of the lambda that raises the fault.
      have called : ∃ a b,
          LambdaRaises body param₁ param₂ scope body.value body.Raises a b (.undefined name) := by
        dsimp only at h
        split at h
        · exact MergeTree.exists_of_raises h
        · exact exists_of_foldRaises h
      obtain ⟨a, b, h | ⟨result, -, refused⟩⟩ := called
      · exact (free_of_overlay (ihb h)).imp_left fun free =>
          List.mem_append_right _ (List.mem_append_right _ free)
      · exact absurd refused (requireNumber_ne_undefined body result)

/-- The wording of a fault tells whether it is that of a name without a value, and of which name. -/
theorem Fault.eq_undefined_of_message {fault : Fault} {name : Text}
    (h : fault.message = (Fault.undefined name).message) : fault = .undefined name := by
  have head := congrArg List.head? h
  cases fault with
  | undefined other =>
    have same := List.append_cancel_left (List.append_cancel_right h)
    rw [same]
  | noSequence combinator kind => cases combinator <;> cases head
  | operandKinds | unknownOperator | boundKinds | fractionalBound | reversedBounds | neutralKind
  | lambdaKind | lambdaFraction => cases head

/-! ## Runs -/

namespace Run

variable {plan : Cancellation} {run mid : Run}

/-- A statement adds the name it declares to the global frame. -/
theorem names_executeOne {stmt : Stmt} (h : run.executeOne plan stmt = (.ok (), mid)) :
    mid.globals.map Prod.fst = stmt.declares?.toList ++ run.globals.map Prod.fst := by
  have frame (e : Expr) : (run.evaluate e).2.globals = run.globals := rfl
  cases stmt with
  | print text =>
    cases h
    rfl
  | var name e =>
    have same := frame e
    rw [executeOne] at h
    generalize run.evaluate e = result at h same
    rcases result with ⟨ending | value, after⟩
    · cases h
    · cases h
      exact congrArg (fun frame : Frame => name :: frame.map Prod.fst) same
  | out e =>
    have same := frame e
    rw [executeOne] at h
    generalize run.evaluate e = result at h same
    rcases result with ⟨ending | value, after⟩
    · cases h
    · cases h
      exact congrArg (fun frame : Frame => frame.map Prod.fst) same

/-- Statements that are executed to their end add the names they declare to the global frame. -/
theorem names_execute {program : Program} (h : run.execute plan program = (.completed, mid))
    (name : Text) :
    name ∈ mid.globals.map Prod.fst ↔
      name ∈ program.declared ∨ name ∈ run.globals.map Prod.fst := by
  fun_induction execute plan run program with
  | case1 run =>
    cases h
    simp [Program.declared]
  | case2 run stmt program ending left pass =>
    exact absurd (Prod.mk.inj h).1 (ne_completed_of_passStatement pass)
  | case3 run stmt program passed pass after one ih =>
    have frame : passed.globals = run.globals := by rw [eq_of_passStatement pass]
    rw [ih h, names_executeOne one, frame, Program.declared_cons, List.mem_append, List.mem_append,
      ← or_assoc, or_comm (a := name ∈ Program.declared program)]
  | case4 run stmt program passed pass ending after one =>
    exact absurd (Prod.mk.inj h).1 (ne_completed_of_executeOne plan one)

/-- A statement that a run which is left alone fails in has an expression that raises the fault. -/
theorem Alone.raises_of_execute (alone : run.Alone) {stmt : Stmt} {fault : Fault}
    (h : (run.execute .never [stmt]).1 = .failed (.fault fault)) :
    ∃ e, stmt.expr? = some e ∧ e.Raises [run.globals] fault := by
  obtain ⟨-, ending⟩ := execute_alone alone [stmt]
  -- The plain interpretation of a single statement fails in its expression, if it fails.
  have single : ∀ failure, (Program.plain run.globals [stmt]).failure = some failure →
      stmt.expr? = some failure.expr ∧ failure.globals = run.globals := by
    intro failure eq
    cases stmt with
    | print text => cases eq
    | var name e | out e =>
      rw [Program.plain] at eq
      split at eq <;> cases eq
      exact ⟨rfl, rfl⟩
  split at ending
  · cases h.symm.trans ending
  · rename_i failure fails
    obtain ⟨fault', raises, ending⟩ := ending
    cases h.symm.trans ending
    obtain ⟨evaluated, globals⟩ := single failure fails
    exact ⟨failure.expr, evaluated, globals ▸ raises⟩

/-- A run that is left alone and fails does so in a statement to which it gets, and whose expression
raises the fault. -/
theorem Alone.exists_failing (alone : run.Alone) {program : Program} {fault : Fault}
    (h : (run.execute .never program).1 = .failed (.fault fault)) :
    ∃ before stmt later mid e, program = before ++ stmt :: later ∧
      run.execute .never before = (.completed, mid) ∧
      (mid.execute .never [stmt]).1 = .failed (.fault fault) ∧ stmt.expr? = some e ∧
      e.Raises [mid.globals] fault := by
  induction program generalizing run with
  | nil => cases h
  | cons stmt program ih =>
    rw [← List.singleton_append] at h
    rcases one : run.execute .never [stmt] with ⟨ending, after⟩
    by_cases completed : ending = .completed
    · subst completed
      rw [execute_append_of_completed .never one] at h
      have after_alone : after.Alone := by
        have kept := alone.execute [stmt]
        rwa [one] at kept
      obtain ⟨before, failing, later, mid, e, rfl, executed, fails⟩ := ih after_alone h
      exact ⟨stmt :: before, failing, later, mid, e, rfl,
        execute_cons_eq_completed.2 ⟨after, one, executed⟩, fails⟩
    · have ended : (run.execute .never [stmt]).1 ≠ .completed := by rwa [one]
      rw [execute_append_of_ended .never ended] at h
      obtain ⟨e, evaluated, raises⟩ := alone.raises_of_execute h
      exact ⟨[], stmt, program, run, e, rfl, rfl, h, evaluated, raises⟩

theorem alone_resumed (globals : Frame) : (resumed globals .start).Alone := ⟨rfl, rfl⟩

/-- An error that a run reports is worded for the fault that it fails with. -/
theorem exists_of_error_mem {globals : Frame} {program : Program} {message : Text}
    (h : .error message ∈ eventsFrom globals .start program) :
    ∃ fault, ((resumed globals .start).execute .never program).1 = .failed (.fault fault) ∧
      message = fault.message := by
  obtain ⟨printed, ending⟩ := execute_alone (alone_resumed globals) program
  have past : (resumed globals .start).events = [] := rfl
  have parts : eventsFrom globals .start program =
      ((resumed globals .start).execute .never program).2.events.reverse ++
        ((resumed globals .start).execute .never program).1.events := rfl
  rw [parts, printed, past] at h
  split at ending
  · rw [ending] at h
    simp [Ending.events] at h
  · obtain ⟨fault, -, ending⟩ := ending
    refine ⟨fault, ending, ?_⟩
    rw [ending] at h
    simpa [Ending.events, RunError.message] using h

/-- The events of a text are the start and what its statements report. -/
theorem eventsOf_eq_eventsFrom {text : Text} {program : Program}
    (h : Program.ofText text = .ok program) :
    eventsOf text = .started :: eventsFrom [] .start program :=
  (events_interpret_of_ok .never h).trans (alone_started.events_execute program)

/-- A run of the program gets to a statement and fails there because the name has no value. The name
is free in the expression of that statement, and no statement before it declares the name. -/
def FailsFor (name : Text) (program : Program) : Prop :=
  ∃ before stmt later mid e, program = before ++ stmt :: later ∧
    (resumed [] .start).execute .never before = (.completed, mid) ∧
    (mid.execute .never [stmt]).1 = .failed (.fault (.undefined name)) ∧
    stmt.expr? = some e ∧ name ∈ e.free ∧ name ∉ before.declared

/-- A name that is reported to have no value is to blame. -/
theorem failsFor_of_mem {program : Program} {name : Text}
    (h : .error (Fault.undefined name).message ∈ eventsFrom [] .start program) :
    FailsFor name program := by
  obtain ⟨fault, ending, message⟩ := exists_of_error_mem h
  obtain rfl := Fault.eq_undefined_of_message message.symm
  obtain ⟨before, stmt, later, mid, e, split, executed, fails, evaluated, raises⟩ :=
    (alone_resumed []).exists_failing ending
  obtain ⟨free, undefined⟩ := Expr.free_of_raises raises
  refine ⟨before, stmt, later, mid, e, split, executed, fails, evaluated, free, fun declared => ?_⟩
  -- A name that is declared is in the global frame, and so has a value.
  have bound := (names_execute executed name).2 (.inl declared)
  rw [Scope.get?_cons, Option.or_eq_none_iff, Frame.lookup_eq_none_iff] at undefined
  exact undefined.1 bound

/-- The names that a run which is left alone reports to have no value. In a program all of whose
names have values there is none, and in any program such a name is to blame for the failure of the
run. What is reported for a program is what is reported for a text that parses to it. -/
theorem undefined_mem_eventsFrom (program : Program) :
    (program.Scoped [] → ∀ name,
      .error ("Variable " ++ name ++ " not found") ∉ eventsFrom [] .start program) ∧
    (∀ name, .error ("Variable " ++ name ++ " not found") ∈ eventsFrom [] .start program →
      FailsFor name program) ∧
    ∀ text, Program.ofText text = .ok program →
      eventsOf text = .started :: eventsFrom [] .start program := by
  refine ⟨fun named name mem => ?_, fun name mem => failsFor_of_mem mem,
    fun text => eventsOf_eq_eventsFrom⟩
  obtain ⟨before, stmt, later, _, e, rfl, -, -, evaluated, free, undeclared⟩ := failsFor_of_mem mem
  rcases named.mem_of_free evaluated free with declared | given
  · exact undeclared declared
  · exact List.not_mem_nil given

/-- A parameter and a variable have values in the body of the lambda, and a variable has none in the
statement that declares it. -/
theorem undefined_mem_eventsFrom_of_own_value :
    let named : Program := [.var "x" (.number 1),
      .out (.map (.range (.ident "x") (.number 2)) "y" (.binary (.ident "y") "*" (.ident "x")))]
    let own : Program := [.print "a", .var "x" (.ident "x")]
    (∀ name, .error ("Variable " ++ name ++ " not found") ∉ eventsFrom [] .start named) ∧
      .error ("Variable x not found" : Text) ∈ eventsFrom [] .start own ∧ FailsFor "x" own := by
  intro named own
  have events : eventsFrom [] .start own =
      [.output "a", .error "Variable x not found", .completed] := by
    rw [eventsFrom, execute, (alone_resumed []).passStatement]
    dsimp only [executeOne]
    rw [execute, Alone.passStatement ⟨rfl, rfl⟩]
    dsimp only [executeOne]
    rw [evaluate, Loop.run, State.settle_of_isEnded rfl]
    rfl
  have reported : .error ("Variable x not found" : Text) ∈ eventsFrom [] .start own := by
    rw [events]
    simp
  refine ⟨(undefined_mem_eventsFrom named).1 (by decide), reported,
    (undefined_mem_eventsFrom own).2.1 "x" reported⟩

end Run

end RangeCalc
