import Mathlib.Tactic.Common

/- A text read in pieces: each read takes up to `n` elements and stops after an end mark.

   This is `fgets` with a buffer of `n + 1`: a line that fits comes whole with its mark,
   and a line that fills the buffer leaves its mark to the next read. -/
namespace Pieces

variable {α : Type} [DecidableEq α] (mark : α) (n : Nat)

/-- What the reads return; `line` is what the present one has so far. -/
def pieces : List α → List α → List (List α)
  | [], line => if line.isEmpty then [] else [line]
  | c :: rest, line =>
    if c = mark ∨ line.length + 1 = n then (line ++ [c]) :: pieces rest []
    else pieces rest (line ++ [c])

variable {mark n}

/-- A read goes on while there is room and no mark. -/
theorem pieces_append {body : List α} (hbody : mark ∉ body) (rest : List α) {line : List α}
    (hlen : line.length + body.length < n) :
    pieces mark n (body ++ rest) line = pieces mark n rest (line ++ body) := by
  induction body generalizing line with
  | nil => simp
  | cons c body ih =>
    rw [List.mem_cons, not_or] at hbody
    rw [List.length_cons] at hlen
    have hc : ¬ (c = mark ∨ line.length + 1 = n) := by
      intro hcase
      obtain h | h := hcase
      · exact hbody.1 h.symm
      · omega
    have hlen' : (line ++ [c]).length + body.length < n := by
      rw [List.length_append, List.length_singleton]
      omega
    rw [List.cons_append, pieces, if_neg hc, ih hbody.2 hlen', List.append_assoc,
      List.singleton_append]

/-- A line that fits comes whole. -/
theorem pieces_line {body : List α} (hbody : mark ∉ body) (rest : List α) {line : List α}
    (hlen : line.length + body.length < n) :
    pieces mark n (body ++ mark :: rest) line =
      (line ++ body ++ [mark]) :: pieces mark n rest [] := by
  rw [pieces_append hbody _ hlen, pieces, if_pos (.inl rfl)]

/-- A line that fills the buffer, and its mark. -/
theorem pieces_full {body : List α} (hbody : mark ∉ body) (rest : List α)
    (hlen : body.length = n) (hne : body ≠ []) :
    pieces mark n (body ++ mark :: rest) [] = body :: [mark] :: pieces mark n rest [] := by
  obtain ⟨init, c, rfl⟩ := (List.eq_nil_or_concat body).resolve_left hne
  rw [List.concat_eq_append] at hbody hlen ⊢
  rw [List.length_append, List.length_singleton] at hlen
  rw [List.mem_append, not_or] at hbody
  have hroom : ([] : List α).length + init.length < n := by
    rw [List.length_nil]
    omega
  rw [List.append_assoc, pieces_append hbody.1 _ hroom, List.nil_append, List.singleton_append,
    pieces, if_pos (.inr hlen), pieces, if_pos (.inl rfl), List.nil_append]

/-- A line that does not fit: the first read has no mark. -/
theorem pieces_long {body : List α} (hbody : mark ∉ body) (rest : List α) (hn : 0 < n) (hlen : n ≤ body.length) :
    ∃ more, pieces mark n (body ++ rest) [] = body.take n :: more := by
  obtain ⟨k, rfl⟩ := Nat.exists_eq_add_one.mpr hn
  have hcut : body = body.take k ++ body[k] :: body.drop (k + 1) := by simp
  have htake : mark ∉ body.take k := fun h => hbody (List.mem_of_mem_take h)
  have hroom : ([] : List α).length + (body.take k).length < k + 1 := by
    rw [List.length_nil, List.length_take]
    omega
  refine ⟨pieces mark (k + 1) (body.drop (k + 1) ++ rest) [], ?_⟩
  have hfull : body[k] = mark ∨ (body.take k).length + 1 = k + 1 := by
    right
    rw [List.length_take]
    omega
  calc pieces mark (k + 1) (body ++ rest) []
      = pieces mark (k + 1) (body.take k ++ (body[k] :: (body.drop (k + 1) ++ rest))) [] := by
        rw [← List.cons_append, ← List.append_assoc, ← hcut]
    _ = (body.take k ++ [body[k]]) :: pieces mark (k + 1) (body.drop (k + 1) ++ rest) [] := by
        rw [pieces_append htake _ hroom, List.nil_append, pieces, if_pos hfull]
    _ = body.take (k + 1) :: pieces mark (k + 1) (body.drop (k + 1) ++ rest) [] := by
        rw [List.take_append_getElem]

end Pieces
