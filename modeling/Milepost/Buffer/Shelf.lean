import Milepost.Buffer.Shared

/-!
# The shelf of shared buffers

Shared buffers are known by their numbers on a shelf. A buffer is put there held once, and its
bytes are given back when nobody holds it any more.

* `get_put_self`: a buffer put on the shelf is found there, held once.
* `get_modify_of_ne`: changing one buffer leaves the others.
-/

namespace Milepost

/-- The number of a shared buffer. -/
abbrev BufferId := Nat

/-- All shared buffers. -/
structure Shelf where
  cells : Array SharedBuffer := #[]

namespace Shelf

/-- A buffer that nobody holds. -/
def nobodys : SharedBuffer := { content := .empty, holders := 0 }

/-- The buffer of the number. -/
def get (s : Shelf) (i : BufferId) : SharedBuffer := s.cells[i]?.getD nobodys

/-- Puts a buffer on the shelf, held once. -/
def put (s : Shelf) (b : Buffer) : BufferId × Shelf :=
  (s.cells.size, ⟨s.cells.push { content := b }⟩)

/-- Changes the buffer of the number. -/
def modify (s : Shelf) (i : BufferId) (f : SharedBuffer → SharedBuffer) : Shelf :=
  ⟨s.cells.modify i f⟩

/-- Changes the buffer of the number by a task that also answers something. -/
def update {α : Type} (s : Shelf) (i : BufferId) (f : SharedBuffer → α × SharedBuffer) :
    α × Shelf :=
  let (a, b) := f (s.get i)
  (a, s.modify i fun _ => b)

/-- The buffer of the number is held in one more place. -/
def hold (s : Shelf) (i : BufferId) : Shelf := s.modify i .hold

/-- The buffer of the number is held in one place less; what nobody holds loses its bytes. -/
def letGo (s : Shelf) (i : BufferId) : Shelf :=
  s.modify i fun b => if b.holders ≤ 1 then { b.letGo with content := .empty } else b.letGo

theorem get_put_self (s : Shelf) (b : Buffer) :
    (s.put b).2.get (s.put b).1 = { content := b } := by
  simp [put, get]

theorem get_modify_self {s : Shelf} {i : BufferId} (h : i < s.cells.size)
    (f : SharedBuffer → SharedBuffer) : (s.modify i f).get i = f (s.get i) := by
  simp only [modify, get, Array.getElem?_modify, if_pos, Array.getElem?_eq_getElem h]
  rfl

theorem get_modify_of_ne {s : Shelf} {i j : BufferId} (h : i ≠ j)
    (f : SharedBuffer → SharedBuffer) : (s.modify i f).get j = s.get j := by
  simp [modify, get, Array.getElem?_modify, h]

end Shelf

end Milepost
