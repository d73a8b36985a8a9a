/-!
# First in, first out

A queue as two lists: items are taken from the front of the first and put in front of the second,
which is turned round when the first is used up. `Fifo.toList` is the queue in the order in which it
will be served, and every operation is stated on it.
-/

namespace RangeCalc.Loop

/-- A queue. -/
structure Fifo (β : Type) where
  /-- The items next to be served. -/
  front : List β
  /-- The items last put in, the last one first. -/
  back : List β

namespace Fifo

variable {β : Type}

/-- The items in the order in which they will be served. -/
def toList (q : Fifo β) : List β := q.front ++ q.back.reverse

/-- The queue of the given items. -/
def ofList (items : List β) : Fifo β := ⟨items, []⟩

/-- Puts items in, one after the other. -/
def pushAll (q : Fifo β) (items : List β) : Fifo β := ⟨q.front, items.reverse ++ q.back⟩

/-- Takes the next item out. -/
def pop? (q : Fifo β) : Option (β × Fifo β) :=
  match q.front with
  | item :: rest => some (item, ⟨rest, q.back⟩)
  | [] =>
    match q.back.reverse with
    | item :: rest => some (item, ⟨rest, []⟩)
    | [] => none

@[simp]
theorem toList_ofList (items : List β) : (ofList items).toList = items := by
  simp [ofList, toList]

@[simp]
theorem toList_pushAll (q : Fifo β) (items : List β) :
    (q.pushAll items).toList = q.toList ++ items := by
  simp [pushAll, toList]

/-- An item taken out was the first. -/
theorem toList_of_pop?_eq_some {q rest : Fifo β} {item : β} (h : q.pop? = some (item, rest)) :
    q.toList = item :: rest.toList := by
  unfold pop? at h
  split at h
  · cases h
    simp_all [toList]
  · split at h <;> simp_all [toList]
    obtain ⟨rfl, rfl⟩ := h
    simp

/-- Nothing can be taken out of an empty queue only. -/
theorem pop?_eq_none_iff {q : Fifo β} : q.pop? = none ↔ q.toList = [] := by
  unfold pop?
  split
  · simp_all [toList]
  · split <;> simp_all [toList]

end Fifo

end RangeCalc.Loop
