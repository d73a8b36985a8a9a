import RangeCalc.Eval
import RangeCalc.Proofs.Loop.Outcome
import RangeCalc.Proofs.Result

/-!
# What scripts give

A script *meets* a condition on values and one on faults if, left alone, it hands a value of the
first kind to what comes after it, or ends with a fault of the second. The rules below follow the
way scripts are put together, so that an evaluation is checked line by line, as a sequential program
would be. That parts take turns is used in a single place: the outcome of a join is one that its
action yields (`Loop.run_yields`).

* `Script.Meets.bind`: a script after another, with one condition on faults for both;
* `Script.Meets.join`: parts that are handed out, each with a condition on its value;
* `Plan.Meets.run`: a plan, with however many parts;
* `Script.Meets.outcome`: what a script that is carried out comes to.
-/

namespace RangeCalc

open Loop Result

variable {β γ : Type}

/-- A result is a value with `V` or a fault with `R`. -/
def Within (V : β → Prop) (R : Fault → Prop) : Except Fault β → Prop
  | .ok b => V b
  | .error fault => R fault

namespace Within

variable {V V' : β → Prop} {W : γ → Prop} {R R' : Fault → Prop} {result : Except Fault β}

theorem mono (h : Within V R result) (hV : ∀ b, V b → V' b) (hR : ∀ fault, R fault → R' fault) :
    Within V' R' result := by
  cases result with
  | ok b => exact hV b h
  | error fault => exact hR fault h

theorem bind {f : β → Except Fault γ} (h : Within V R result) (hf : ∀ b, V b → Within W R (f b)) :
    Within W R (result >>= f) := by
  cases result with
  | ok b => exact hf b h
  | error fault => exact h

/-- A result is what it is. -/
theorem of_eq (hV : ∀ b, result = .ok b → V b) (hR : ∀ fault, result = .error fault → R fault) :
    Within V R result := by
  cases result with
  | ok b => exact hV b rfl
  | error fault => exact hR fault rfl

end Within

namespace Script

/-- Left alone, the script gives a value with `V` to what comes after it, or ends with a fault
with `R`. -/
def Meets (script : Script Note β) (V : β → Prop) (R : Fault → Prop) : Prop :=
  ∀ next o, (script next).Yields false o →
    (∃ b, V b ∧ (next b).Yields false o) ∨ ∃ fault, R fault ∧ o = .error (.error (.fault fault))

namespace Meets

variable {V : β → Prop} {W : γ → Prop} {R : Fault → Prop}

/-- Conditions may be weakened. -/
theorem mono {script : Script Note β} {V' : β → Prop} {R' : Fault → Prop} (h : script.Meets V R)
    (hV : ∀ b, V b → V' b) (hR : ∀ fault, R fault → R' fault) : script.Meets V' R' := by
  intro next o ho
  rcases h next o ho with ⟨b, hb, later⟩ | ⟨fault, hfault, rfl⟩
  · exact .inl ⟨b, hV b hb, later⟩
  · exact .inr ⟨fault, hR fault hfault, rfl⟩

theorem pure {b : β} (h : V b) : (Pure.pure b : Script Note β).Meets V R :=
  fun _ _ ho => .inl ⟨b, h, ho⟩

/-- A script after another. -/
theorem bind {script : Script Note β} {f : β → Script Note γ} (h : script.Meets V R)
    (hf : ∀ b, V b → (f b).Meets W R) : (script >>= f).Meets W R := by
  intro next o ho
  rcases h _ o ho with ⟨b, hb, later⟩ | ends
  · exact hf b hb next o later
  · exact .inr ends

theorem fault {fault : Fault} (h : R fault) : (Script.fault fault).Meets V R := by
  rintro next o ⟨⟩
  exact .inr ⟨fault, h, rfl⟩

theorem ofExcept {result : Except Fault β} (h : Within V R result) :
    (Script.ofExcept result).Meets V R := by
  cases result with
  | ok b => exact pure h
  | error f => exact fault h

theorem check : Script.check.Meets (fun _ => True) R := by
  rintro next o (_ | _ | _ | h | _ | _ | _)
  exact .inl ⟨(), trivial, h⟩

theorem tick : Script.tick.Meets (fun _ => True) R := by
  -- A tick looks for a request to stop before and after it lets others take their turns.
  have pass : Script.Meets (fun next => .tick fun _ => next ()) (fun _ => True) R := by
    rintro next o (_ | _ | _ | _ | h | _ | _)
    exact .inl ⟨(), trivial, h⟩
  exact check.bind fun _ _ => pass.bind fun _ _ => check

theorem note (message : Note) : (Script.note message).Meets (fun _ => True) R := by
  rintro next o (_ | _ | h | _ | _ | _ | _)
  exact .inl ⟨(), trivial, h⟩

/-- What a script that stands alone as an action yields. -/
theorem yields {script : Script Note Value} {V : Value → Prop} {o : Outcome Failure Value}
    (h : script.Meets V R) (ho : (script .ret).Yields false o) :
    (∃ v, V v ∧ o = .ok v) ∨ ∃ fault, R fault ∧ o = .error (.error (.fault fault)) := by
  rcases h _ o ho with ⟨v, hv, ⟨⟩⟩ | ends
  · exact .inl ⟨v, hv, rfl⟩
  · exact .inr ends

/-- Parts that are handed out: all have their values, or one of them fails for all. -/
theorem join {n : Nat} {part : Fin n → Script Note Value} {V : Fin n → Value → Prop}
    (h : ∀ i, (part i).Meets (V i) R) :
    (Script.join n part).Meets (fun values => ∀ i, V i (values i)) R := by
  intro next o ho
  cases ho with
  | join values parts later =>
    refine .inl ⟨values, fun i => ?_, later⟩
    rcases (h i).yields (parts i) with ⟨v, hv, ⟨⟩⟩ | ⟨_, _, ⟨⟩⟩
    exact hv
  | part i failed =>
    rcases (h i).yields failed with ⟨_, _, ⟨⟩⟩ | ends
    exact .inr ends

/-- A script for every item, one after the other. -/
theorem each {script : β → Script Note γ} {f : β → Except Fault γ} {items : List β}
    (h : ∀ item ∈ items, (script item).Meets (fun c => f item = .ok c) R) :
    (Script.each script items).Meets (fun cs => items.mapM f = .ok cs) R := by
  induction items with
  | nil => exact pure rfl
  | cons item items ih =>
    refine (h item List.mem_cons_self).bind fun c hc => ?_
    refine (ih fun other mem => h other (List.mem_cons_of_mem item mem)).bind fun cs hcs => ?_
    exact pure (mapM_cons_eq_ok.2 ⟨c, cs, hc, hcs, rfl⟩)

/-- What a script that is carried out comes to, if the run has not been asked to stop. -/
theorem outcome {script : Script Note Value} {V : Value → Prop} (h : script.Meets V R)
    (desk : Desk Note) (asked : desk.checkpoint.cancelled = false) :
    (∃ v, V v ∧ (run false (script .ret) desk).outcome = .ok v) ∨
      ∃ fault, R fault ∧
        (run false (script .ret) desk).outcome = .error (.error (.fault fault)) :=
  h.yields (asked ▸ run_yields (script .ret) desk)

end Meets

end Script

/-! ## Plans -/

/-- The parts of a plan meet conditions on their values that make for `V` of what is built. -/
def Plan.Meets (p : Plan Note β) (V : β → Prop) (R : Fault → Prop) : Prop :=
  ∃ Q : Fin p.count → Value → Prop,
    (∀ i, (p.part i).Meets (Q i) R) ∧ ∀ values, (∀ i, Q i (values i)) → V (p.build values)

namespace Plan.Meets

variable {V : β → Prop} {W : γ → Prop} {R : Fault → Prop}

theorem mono {p : Plan Note β} {V' : β → Prop} (hp : p.Meets V R) (hV : ∀ b, V b → V' b) :
    p.Meets V' R := by
  obtain ⟨Q, hparts, hbuild⟩ := hp
  exact ⟨Q, hparts, fun values hvalues => hV _ (hbuild values hvalues)⟩

theorem done {b : β} (h : V b) : (Plan.done b).Meets V R :=
  ⟨nofun, nofun, fun _ _ => h⟩

theorem single {script : Script Note Value} {V : Value → Prop} (h : script.Meets V R) :
    (Plan.single script).Meets V R :=
  ⟨fun _ => V, fun _ => h, fun _ hvalues => hvalues (0 : Fin 1)⟩

theorem both {p : Plan Note β} {q : Plan Note γ} (hp : p.Meets V R) (hq : q.Meets W R) :
    (p.both q).Meets (fun b => V b.1 ∧ W b.2) R := by
  obtain ⟨P, hparts, hbuild⟩ := hp
  obtain ⟨Q, hparts', hbuild'⟩ := hq
  refine ⟨Fin.addCases P Q, fun i => ?_, fun values hvalues => ⟨?_, ?_⟩⟩
  · refine Fin.addCases (fun i => ?_) (fun i => ?_) i
    · simpa only [Plan.both, Fin.addCases_left] using hparts i
    · simpa only [Plan.both, Fin.addCases_right] using hparts' i
  · refine hbuild _ fun i => ?_
    simpa only [Fin.addCases_left] using hvalues (i.castAdd q.count)
  · refine hbuild' _ fun i => ?_
    simpa only [Fin.addCases_right] using hvalues (i.natAdd p.count)

theorem map {p : Plan Note β} {f : β → γ} (hp : p.Meets (fun b => W (f b)) R) :
    (p.map f).Meets W R :=
  hp

/-- A plan that is carried out, in place or by parts that are handed out. -/
theorem run {p : Plan Note β} (hp : p.Meets V R) : p.run.Meets V R := by
  obtain ⟨Q, hparts, hbuild⟩ := hp
  obtain ⟨n, part, build⟩ := p
  -- No part: nothing to do. One part: in place. More of them: handed out and joined.
  match n with
  | 0 => exact .pure (hbuild _ nofun)
  | 1 =>
    refine (hparts 0).bind fun v hv => .pure (hbuild _ fun i => ?_)
    obtain rfl : i = 0 := Subsingleton.elim i 0
    exact hv
  | n + 2 => exact (Script.Meets.join hparts).bind fun values hvalues => .pure (hbuild _ hvalues)

end Plan.Meets

end RangeCalc
