import Mathlib.Data.List.DropRight
import Mathlib.Tactic.Common

/- A circular buffer that keeps the most recent items.

   The buffer is an array of slots with the slot to be written next and a count that
   saturates at the number of slots. Until it is full the items are the first `count`
   slots; from then on they begin at the slot that the next write replaces, the oldest,
   and wrap at the end of the array. That the two pictures agree at the moment the buffer
   fills is `next_eq`, the third of the fields that make a triple a ring.

   What is proved:
     `contents_pushAll` — after any writes the items are the last ones of what there was
     and what was written, in order, as many as there are slots. -/

/-- Slots, the slot to be written next, and how many hold an item. -/
structure RingBuffer (α : Type) where
  slots : List α
  next : Nat
  count : Nat
  next_lt : next < slots.length
  count_le : count ≤ slots.length
  next_eq : count < slots.length → next = count

namespace RingBuffer

variable {α : Type}

/-- Nothing written yet. -/
def blank (slots : List α) (h : 0 < slots.length) : RingBuffer α :=
  ⟨slots, 0, 0, h, Nat.zero_le _, fun _ => rfl⟩

/-- The items, the oldest first. -/
def contents (r : RingBuffer α) : List α :=
  if r.count = r.slots.length then r.slots.drop r.next ++ r.slots.take r.next
  else r.slots.take r.count

/-- The item goes to the next slot, whatever that held. -/
def push (r : RingBuffer α) (x : α) : RingBuffer α where
  slots := r.slots.set r.next x
  next := (r.next + 1) % r.slots.length
  count := if r.count < r.slots.length then r.count + 1 else r.count
  next_lt := by
    rw [List.length_set]
    exact Nat.mod_lt _ (Nat.zero_lt_of_lt r.next_lt)
  count_le := by
    have := r.count_le
    rw [List.length_set]
    split <;> omega
  next_eq := by
    have hle := r.count_le
    rw [List.length_set]
    intro h
    split at h
    · next hlt =>
      rw [if_pos hlt, r.next_eq hlt]
      exact Nat.mod_eq_of_lt h
    · omega

def pushAll (r : RingBuffer α) (xs : List α) : RingBuffer α := xs.foldl push r

@[simp] theorem contents_blank (slots : List α) (h : 0 < slots.length) :
    (blank slots h).contents = [] := by
  have hne : 0 ≠ slots.length := by omega
  simp [contents, blank, hne]

@[simp] theorem length_slots_push (r : RingBuffer α) (x : α) :
    (r.push x).slots.length = r.slots.length :=
  List.length_set

@[simp] theorem length_slots_pushAll (r : RingBuffer α) (xs : List α) :
    (r.pushAll xs).slots.length = r.slots.length := by
  induction xs generalizing r with
  | nil => rfl
  | cons x xs ih => exact (ih (r.push x)).trans (length_slots_push r x)

theorem pushAll_append (r : RingBuffer α) (xs ys : List α) :
    r.pushAll (xs ++ ys) = (r.pushAll xs).pushAll ys :=
  List.foldl_append

theorem length_contents (r : RingBuffer α) : r.contents.length = r.count := by
  have h₁ := r.next_lt
  have h₂ := r.count_le
  unfold contents
  split
  · simp only [List.length_append, List.length_drop, List.length_take]
    omega
  · simp only [List.length_take]
    omega

/-- The array around the slot that is written next. -/
theorem split_slots (r : RingBuffer α) :
    ∃ before old after, r.slots = before ++ old :: after ∧ before.length = r.next := by
  have hlt := r.next_lt
  refine ⟨r.slots.take r.next, r.slots[r.next], r.slots.drop (r.next + 1), ?_, ?_⟩
  · rw [List.getElem_cons_drop, List.take_append_drop]
  · rw [List.length_take]
    omega

/-- The last of more items than there is room for. -/
theorem rtake_append_singleton {xs : List α} {n : Nat} (x : α) (h : xs.length < n) :
    (xs ++ [x]).rtake n = xs ++ [x] := by
  unfold List.rtake
  rw [List.length_append, List.length_singleton, Nat.sub_eq_zero_of_le h, List.drop_zero]

theorem rtake_cons_of_length {xs : List α} {n : Nat} (x : α) (h : xs.length = n) :
    (x :: xs).rtake n = xs := by
  unfold List.rtake
  rw [List.length_cons, h, Nat.add_sub_cancel_left, List.drop_succ_cons, List.drop_zero]

section Push
variable {r : RingBuffer α} {before after : List α} {old : α}

theorem set_slots (hslots : r.slots = before ++ old :: after) (hbefore : before.length = r.next)
    (x : α) : r.slots.set r.next x = before ++ x :: after := by
  rw [hslots, ← hbefore]
  simp

/-- A full ring: the slot written held the oldest item. -/
theorem contents_push_full (hslots : r.slots = before ++ old :: after)
    (hbefore : before.length = r.next) (hfull : r.count = r.slots.length) (x : α) :
    r.contents = old :: (after ++ before) ∧ (r.push x).contents = after ++ before ++ [x] := by
  have hcap : r.slots.length = before.length + after.length + 1 := by
    rw [hslots, List.length_append, List.length_cons]
    omega
  refine ⟨?_, ?_⟩
  · rw [contents, if_pos hfull, hslots, ← hbefore, List.drop_left, List.take_left, List.cons_append]
  · have hcount : (r.push x).count = r.slots.length := by
      simp [push, hfull]
    rw [contents, length_slots_push, if_pos hcount]
    show (r.slots.set r.next x).drop ((r.next + 1) % r.slots.length) ++
      (r.slots.set r.next x).take ((r.next + 1) % r.slots.length) = _
    rw [set_slots hslots hbefore, ← hbefore, hcap]
    cases after with
    | nil =>
      -- The last slot of the array: the next write is to the first.
      simp
    | cons y after =>
      have hsucc : (before.length + 1) % (before.length + (y :: after).length + 1) =
          (before ++ [x]).length := by
        rw [Nat.mod_eq_of_lt (by rw [List.length_cons]; omega), List.length_append]
        rfl
      rw [hsucc, List.append_cons before x (y :: after), List.drop_left, List.take_left,
        List.append_assoc]

/-- A ring with room left: the items are the slots before the next one. -/
theorem contents_push_room (hslots : r.slots = before ++ old :: after)
    (hbefore : before.length = r.next) (hroom : r.count < r.slots.length) (x : α) :
    r.contents = before ∧ (r.push x).contents = before ++ [x] := by
  have hnext : before.length = r.count := hbefore.trans (r.next_eq hroom)
  have hcap : r.slots.length = before.length + after.length + 1 := by
    rw [hslots, List.length_append, List.length_cons]
    omega
  have hset := set_slots hslots hbefore x
  refine ⟨?_, ?_⟩
  · rw [contents, if_neg (by omega), hslots, ← hnext, List.take_left]
  · have hcount : (r.push x).count = before.length + 1 := by
      simp [push, hroom, hnext]
    have hsucc : before.length + 1 = (before ++ [x]).length := by
      rw [List.length_append]
      rfl
    rw [contents, length_slots_push, hcount]
    split
    · -- The ring is full now, and the next write is to its first slot.
      next hnow =>
      have hnil : after = [] := by
        apply List.eq_nil_of_length_eq_zero
        omega
      show (r.slots.set r.next x).drop ((r.next + 1) % r.slots.length) ++
        (r.slots.set r.next x).take ((r.next + 1) % r.slots.length) = _
      rw [hset, ← hbefore, hnow, Nat.mod_self, hnil]
      simp
    · show (r.slots.set r.next x).take (before.length + 1) = _
      rw [hset, hsucc, List.append_cons before x after, List.take_left]

end Push

/-- One write: the new item last, and the oldest gone if there was no room. -/
theorem contents_push (r : RingBuffer α) (x : α) :
    (r.push x).contents = (r.contents ++ [x]).rtake r.slots.length := by
  obtain ⟨before, old, after, hslots, hbefore⟩ := r.split_slots
  have hcap : r.slots.length = before.length + after.length + 1 := by
    rw [hslots, List.length_append, List.length_cons]
    omega
  by_cases hfull : r.count = r.slots.length
  · obtain ⟨hold, hnew⟩ := contents_push_full hslots hbefore hfull x
    have hlen : (after ++ before ++ [x]).length = r.slots.length := by
      simp only [List.length_append, List.length_singleton]
      omega
    rw [hold, hnew, List.cons_append, rtake_cons_of_length _ hlen]
  · have hroom : r.count < r.slots.length := Nat.lt_of_le_of_ne r.count_le hfull
    obtain ⟨hold, hnew⟩ := contents_push_room hslots hbefore hroom x
    rw [hold, hnew, rtake_append_singleton x (by omega)]

/-- The last of the last are the last of all. -/
theorem rtake_rtake_append (xs ys : List α) (n : Nat) :
    (xs.rtake n ++ ys).rtake n = (xs ++ ys).rtake n := by
  unfold List.rtake
  have hlen : (xs.drop (xs.length - n) ++ ys).length - n = (xs.length - (xs.length - n) + ys.length) - n := by
    rw [List.length_append, List.length_drop]
  rw [hlen, List.drop_append, List.drop_append, List.drop_drop, List.length_drop, List.length_append]
  congr 2 <;> omega

/-- **The ring keeps the last items, in order.** -/
theorem contents_pushAll (r : RingBuffer α) (xs : List α) :
    (r.pushAll xs).contents = (r.contents ++ xs).rtake r.slots.length := by
  induction xs generalizing r with
  | nil =>
    have hle : r.contents.length ≤ r.slots.length := by
      rw [length_contents]
      exact r.count_le
    show r.contents = _
    rw [List.append_nil, List.rtake, Nat.sub_eq_zero_of_le hle, List.drop_zero]
  | cons x xs ih =>
    calc (r.pushAll (x :: xs)).contents
        = ((r.push x).contents ++ xs).rtake (r.push x).slots.length := ih (r.push x)
      _ = ((r.contents ++ [x]).rtake r.slots.length ++ xs).rtake r.slots.length := by
          rw [contents_push, length_slots_push]
      _ = (r.contents ++ [x] ++ xs).rtake r.slots.length := rtake_rtake_append _ _ _
      _ = (r.contents ++ x :: xs).rtake r.slots.length := by rw [List.append_assoc]; rfl

end RingBuffer
