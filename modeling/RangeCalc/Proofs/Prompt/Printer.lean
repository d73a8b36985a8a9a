import RangeCalc.Prompt
import RangeCalc.Proofs.Loop.Shared
import RangeCalc.Proofs.Run.Events

/-!
# What the printer writes

At every point of a run the events so far are those that the printer has written, followed by those
that wait for it. A turn of the printer moves all events from the second part to the first, an
event joins the second part, and nothing else touches either. Since the printer does not disturb
the run, a run next to it reports what it reports alone, and in the last turn, which comes after
the end of the subscription, the printer writes what is left.

* `Printer.Carries`: what has been written and what waits make up the events;
* `Streaming.execute_spec`: next to a printer, statements do what they do alone;
* `Streaming.conclude_interpret`: the printer comes to its end, and has written all events.
-/

namespace RangeCalc

/-! ## Screens -/

namespace Screen

theorem append_blank (a : Screen) : a ++ blank = a :=
  Screen.ext (List.append_nil a.out) (List.append_nil a.err) rfl

theorem blank_append (a : Screen) : blank ++ a = a :=
  Screen.ext rfl rfl (Nat.zero_add a.traces)

theorem append_assoc (a b c : Screen) : a ++ b ++ c = a ++ (b ++ c) :=
  Screen.ext (List.append_assoc a.out b.out c.out) (List.append_assoc a.err b.err c.err)
    (Nat.add_assoc a.traces b.traces c.traces)

/-- What events write is written one after the other. -/
theorem ofEvents_append (events later : List Event) :
    ofEvents (events ++ later) = ofEvents events ++ ofEvents later := by
  induction events with
  | nil => exact (blank_append _).symm
  | cons event events ih =>
    have first : ofEvents (event :: (events ++ later)) =
        ofEvent event ++ ofEvents (events ++ later) := rfl
    rw [List.cons_append, first, ih, ← append_assoc]
    rfl

end Screen

namespace Prompt

open EventStream Loop

/-! ## The printer -/

namespace Printer

variable {p : Printer} {events : List Event}

/-- The printer has written some events, and the others wait for it. -/
def Carries (p : Printer) (events : List Event) : Prop :=
  ∃ written waiting, events = written ++ waiting ∧ p.screen = .ofEvents written ∧
    p.stream.subscriptions = [⟨waiting.map .event, true⟩] ∧ p.stream.closed = false

/-- What the printer does in a turn depends on the item that comes next. -/
theorem turn_of_next {item : Option Item} {stream : EventStream}
    (h : p.stream.next 0 = (item, stream)) :
    p.turn =
      match item with
      | none => { p with due := false }
      | some .closed => { p with stream := stream, due := false, finished := true }
      | some (.event event) =>
        turn { p with stream := stream, screen := p.screen ++ .ofEvent event } := by
  rw [turn]
  split <;> rename_i found <;> rw [h] at found <;> cases found <;> rfl

/-- In a turn, the events at the front of the queue are written first. -/
theorem turn_eq {waiting : List Event} {rest : List Item} {attached : Bool}
    (h : p.stream.subscriptions = [⟨waiting.map .event ++ rest, attached⟩]) :
    p.turn = turn
      { p with
        stream := { p.stream with subscriptions := [⟨rest, attached⟩] }
        screen := p.screen ++ .ofEvents waiting } := by
  induction waiting generalizing p with
  | nil =>
    have same : { p.stream with subscriptions := [⟨rest, attached⟩] } = p.stream := by
      rw [← show p.stream.subscriptions = [⟨rest, attached⟩] from h]
    rw [same, show Screen.ofEvents [] = .blank from rfl, Screen.append_blank]
  | cons event waiting ih =>
    have next : p.stream.next 0 = (some (.event event),
        { p.stream with subscriptions := [⟨waiting.map .event ++ rest, attached⟩] }) := by
      rw [EventStream.next, h]
      rfl
    rw [turn_of_next next]
    dsimp only
    rw [ih rfl, Screen.append_assoc]
    rfl

/-- A turn of a printer for which nothing waits. -/
theorem turn_of_nil {attached : Bool} (h : p.stream.subscriptions = [⟨[], attached⟩]) :
    p.turn = { p with due := false } := by
  have next : p.stream.next 0 = (none, p.stream) := by
    rw [EventStream.next, h]
    rfl
  exact turn_of_next next

/-- A turn of a printer for which the end of its subscription waits. -/
theorem turn_of_closed {attached : Bool} (h : p.stream.subscriptions = [⟨[.closed], attached⟩]) :
    p.turn.finished = true ∧ p.turn.screen = p.screen := by
  have next : p.stream.next 0 = (some .closed,
      { p.stream with subscriptions := [⟨[], attached⟩] }) := by
    rw [EventStream.next, h]
    rfl
  rw [turn_of_next next]
  exact ⟨rfl, rfl⟩

namespace Carries

theorem fresh : Printer.fresh.Carries [] := ⟨[], [], rfl, rfl, rfl, rfl⟩

/-- A turn writes all events that wait. -/
theorem turn (h : p.Carries events) : p.turn.Carries events := by
  obtain ⟨written, waiting, rfl, screen, queue, still⟩ := h
  have front : p.stream.subscriptions = [⟨waiting.map .event ++ [], true⟩] := by
    rw [List.append_nil, queue]
  rw [turn_eq front, turn_of_nil rfl]
  refine ⟨written ++ waiting, [], (List.append_nil _).symm, ?_, rfl, still⟩
  rw [Screen.ofEvents_append, screen]

theorem visit (h : p.Carries events) : p.visit.Carries events := by
  rw [Printer.visit]
  split
  · exact h.turn
  · exact h

/-- An event waits behind those that wait already. -/
theorem receive (h : p.Carries events) (event : Event) :
    (p.receive event).Carries (events ++ [event]) := by
  obtain ⟨written, waiting, rfl, screen, queue, still⟩ := h
  have emitted : p.stream.emit? event = some
      { p.stream with
        kept := lastOf p.stream.size (p.stream.kept ++ [event])
        subscriptions := [⟨(waiting ++ [event]).map .event, true⟩] } := by
    rw [emit?, if_neg (Bool.eq_false_iff.1 still), queue, List.map_append]
    rfl
  rw [Printer.receive, emitted]
  exact ⟨written, waiting ++ [event], List.append_assoc _ _ _, screen, rfl, still⟩

/-- After the end of its subscription the printer writes what is left, and ends. -/
theorem release (h : p.Carries events) :
    p.release.visit.finished = true ∧ p.release.visit.screen = .ofEvents events := by
  obtain ⟨written, waiting, rfl, screen, queue, -⟩ := h
  have last : p.release.stream.subscriptions = [⟨waiting.map .event ++ [.closed], false⟩] := by
    rw [Printer.release, unsubscribe, queue]
    rfl
  rw [Printer.visit, if_pos (show p.release.due = true from rfl), turn_eq last]
  refine ⟨(turn_of_closed rfl).1, (turn_of_closed rfl).2.trans ?_⟩
  rw [Screen.ofEvents_append, ← screen]
  rfl

end Carries

end Printer

/-! ## Runs next to a printer -/

namespace Streaming

variable {s : Streaming}

/-- The printer has written the events of the run, or they wait for it. -/
def Keeps (s : Streaming) : Prop := s.printer.Carries s.run.events.reverse

theorem Keeps.emit {plan : Cancellation} (h : s.Keeps) (event : Event) :
    (s.emit plan event).Keeps := by
  have carries := h.receive event
  rwa [← List.reverse_cons] at carries

theorem Keeps.wait (h : s.Keeps) : s.wait.Keeps := h.visit

/-- Next to a printer, the checkpoint before a statement is passed as it is alone. -/
theorem passStatement_spec (h : s.Keeps) :
    Prod.map id Streaming.run s.passStatement = s.run.passStatement ∧
      s.passStatement.2.Keeps := by
  rw [passStatement]
  rcases pass : s.run.passStatement with ⟨result, run⟩
  have kept : Keeps { s with run := run } := by
    rw [Keeps, (Run.frame_of_passStatement pass).1]
    exact h
  dsimp only
  split
  · exact ⟨rfl, kept.wait⟩
  · exact ⟨rfl, kept⟩

/-- Next to a printer, an expression comes to what it comes to alone. -/
theorem evaluate_spec (h : s.Keeps) (e : Expr) :
    Prod.map id Streaming.run (s.evaluate e) = s.run.evaluate e ∧ (s.evaluate e).2.Keeps := by
  have report := Shared.run_fst Printer.turn s.printer.due s.printer s.run.interrupted
    (e.eval [s.run.globals] .ret) s.run.desk
  have carries := Shared.run_snd (P := fun p => Printer.Carries p s.run.events.reverse)
    (fun _ carries => carries.turn) s.printer.due h s.run.interrupted
    (e.eval [s.run.globals] .ret) s.run.desk
  refine ⟨?_, carries⟩
  rw [evaluate, Run.evaluate, ← report]
  rfl

/-- Next to a printer, a statement does what it does alone. -/
theorem executeOne_spec (plan : Cancellation) (h : s.Keeps) (stmt : Stmt) :
    Prod.map id Streaming.run (s.executeOne plan stmt) = s.run.executeOne plan stmt ∧
      (s.executeOne plan stmt).2.Keeps := by
  cases stmt with
  | print text => exact ⟨rfl, h.emit _⟩
  | var name e =>
    obtain ⟨same, kept⟩ := evaluate_spec h e
    rw [executeOne, Run.executeOne, ← same]
    generalize s.evaluate e = result at kept
    rcases result with ⟨ending | value, after⟩
    · exact ⟨rfl, kept⟩
    · exact ⟨rfl, kept⟩
  | out e =>
    obtain ⟨same, kept⟩ := evaluate_spec h e
    rw [executeOne, Run.executeOne, ← same]
    generalize s.evaluate e = result at kept
    rcases result with ⟨ending | value, after⟩
    · exact ⟨rfl, kept⟩
    · exact ⟨rfl, kept.emit _⟩

/-- Next to a printer, statements do what they do alone. -/
theorem execute_spec (plan : Cancellation) (h : s.Keeps) (program : Program) :
    Prod.map id Streaming.run (s.execute plan program) = s.run.execute plan program ∧
      (s.execute plan program).2.Keeps := by
  induction program generalizing s with
  | nil => exact ⟨rfl, h⟩
  | cons stmt program ih =>
    obtain ⟨pass, passed_keeps⟩ := passStatement_spec h
    rw [execute, Run.execute, ← pass]
    generalize s.passStatement = result at passed_keeps
    rcases result with ⟨ending | ⟨⟩, after⟩
    · exact ⟨rfl, passed_keeps⟩
    · obtain ⟨one, kept⟩ := executeOne_spec plan passed_keeps stmt
      dsimp only [Prod.map, id]
      rw [← one]
      generalize after.executeOne plan stmt = result at kept
      rcases result with ⟨ending | ⟨⟩, last⟩
      · exact ⟨rfl, kept⟩
      · exact ih kept

/-- Next to a printer, a run reports events as it does alone. -/
theorem foldl_emit_spec (plan : Cancellation) (h : s.Keeps) (events : List Event) :
    (events.foldl (emit plan) s).run = events.foldl (Run.emit plan) s.run ∧
      (events.foldl (emit plan) s).Keeps := by
  induction events generalizing s with
  | nil => exact ⟨rfl, h⟩
  | cons event events ih => exact ih (h.emit event)

/-- Next to a printer, a run reports its last events as it does alone. -/
theorem emitLast_spec (plan : Cancellation) (h : s.Keeps) (events : List Event) :
    (s.emitLast plan events).run = (s.run.emitLast plan events).2 ∧
      (s.emitLast plan events).Keeps := by
  obtain ⟨same, kept⟩ := foldl_emit_spec plan h.wait events
  exact ⟨congrArg (fun run : Run => run.wait.2) same, kept.wait⟩

/-- Next to a printer, a run ends as it does alone. -/
theorem finish_spec (plan : Cancellation) (h : s.Keeps) (ending : Ending) :
    (s.finish plan ending).run = (s.run.finish plan ending).2 ∧ (s.finish plan ending).Keeps := by
  cases ending with
  | completed => exact ⟨rfl, h.emit _⟩
  | failed error => exact emitLast_spec plan h _
  | stopped | interrupted => exact emitLast_spec plan h _

/-- Next to a printer, a run reports what it reports alone. -/
theorem interpret_spec (plan : Cancellation) (text : Text) :
    (interpret plan text).run.events.reverse = (Run.interpret plan text).events ∧
      (interpret plan text).Keeps := by
  have first : ((fresh plan).emit plan .started).Keeps :=
    Keeps.emit (s := fresh plan) Printer.Carries.fresh .started
  rw [interpret, Run.interpret]
  cases Program.ofText text with
  | error failure =>
    obtain ⟨same, kept⟩ := finish_spec plan first (.failed (.parse failure.cause))
    exact ⟨congrArg (·.events.reverse) same, kept⟩
  | ok program =>
    obtain ⟨executed, kept⟩ := execute_spec plan first program
    have alone : ((fresh plan).emit plan .started).run = (Run.fresh plan).emit plan .started := rfl
    rw [alone] at executed
    dsimp only
    rw [← executed]
    generalize ((fresh plan).emit plan .started).execute plan program = result at kept
    obtain ⟨same, kept⟩ := finish_spec plan kept result.1
    exact ⟨congrArg (·.events.reverse) same, kept⟩

/-- The printer comes to its end, and by then it has written the events that the run would have
reported alone: all of them, in order. -/
theorem conclude_interpret (plan : Cancellation) (text : Text) :
    (interpret plan text).conclude.finished = true ∧
      (interpret plan text).conclude.screen = .ofEvents (Run.interpret plan text).events := by
  obtain ⟨same, kept⟩ := interpret_spec plan text
  rw [← same]
  exact kept.release

end Streaming

end Prompt

end RangeCalc
