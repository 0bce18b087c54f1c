import Mathlib.Tactic.Common

/- A line of words with separators between them.

   `join` writes the words one after the other, with one separator between two; `skip`,
   `word` and `past` are the steps of a reader that takes the words of a line one by one. A
   reader sees no empty words: where one was written, it goes on to the next that is not. -/
namespace Fields

variable {α : Type} {sep : α → Bool} {blank : α}

/-- What is left behind the separators at the front. -/
def skip (sep : α → Bool) (s : List α) : List α := s.dropWhile sep

/-- The word at the front, and what is left behind it. -/
def word (sep : α → Bool) (s : List α) : List α := s.takeWhile fun c => !sep c

def past (sep : α → Bool) (s : List α) : List α := s.dropWhile fun c => !sep c

def join (blank : α) : List (List α) → List α
  | [] => []
  | [w] => w
  | w :: ws => w ++ blank :: join blank ws

/-- No separator stands in any of the words. -/
def Plain (sep : α → Bool) (ws : List (List α)) : Prop := ∀ w ∈ ws, ∀ c ∈ w, sep c = false

theorem Plain.tail {w : List α} {ws : List (List α)} (h : Plain sep (w :: ws)) : Plain sep ws :=
  fun v hv => h v (List.mem_cons_of_mem w hv)

theorem Plain.head {w : List α} {ws : List (List α)} (h : Plain sep (w :: ws)) : ∀ c ∈ w, sep c = false :=
  h w List.mem_cons_self

theorem skip_of_head {s : List α} (h : ∀ c ∈ s.head?, sep c = false) : skip sep s = s := by
  cases s with
  | nil => rfl
  | cons c s =>
    have hc : ¬ sep c = true := by simp [h c rfl]
    exact List.dropWhile_cons_of_neg hc

/-- A joined line is its first word, and the rest behind a separator. -/
theorem join_cons (w : List α) {ws : List (List α)} (h : ws ≠ []) :
    join blank (w :: ws) = w ++ blank :: join blank ws := by
  cases ws with
  | nil => exact absurd rfl h
  | cons v ws => rfl

theorem head_join {c : α} {w : List α} (ws : List (List α)) :
    (join blank ((c :: w) :: ws)).head? = some c := by
  cases ws with
  | nil => rfl
  | cons v ws => rfl

theorem mem_join {c : α} : ∀ {ws : List (List α)}, c ∈ join blank ws → c = blank ∨ ∃ w ∈ ws, c ∈ w
  | [w], h => Or.inr ⟨w, List.mem_cons_self, h⟩
  | w :: v :: ws, h => by
    rw [join_cons w (List.cons_ne_nil v ws)] at h
    rcases List.mem_append.mp h with h | h
    · exact Or.inr ⟨w, List.mem_cons_self, h⟩
    · rcases List.mem_cons.mp h with rfl | h
      · exact Or.inl rfl
      · exact (mem_join h).imp id fun ⟨u, hu, hc⟩ => ⟨u, List.mem_cons_of_mem w hu, hc⟩

/-- A reader skips the empty words. -/
theorem skip_join (hblank : sep blank = true) : ∀ {ws : List (List α)}, Plain sep ws →
    skip sep (join blank ws) = join blank (ws.dropWhile List.isEmpty)
  | [], _ => rfl
  | [] :: [], _ => rfl
  | [] :: v :: ws, h => by
    rw [List.dropWhile_cons_of_pos rfl, join_cons [] (List.cons_ne_nil v ws), List.nil_append, skip,
      List.dropWhile_cons_of_pos hblank]
    exact skip_join hblank h.tail
  | (c :: w) :: ws, h => by
    rw [List.dropWhile_cons_of_neg Bool.false_ne_true]
    apply skip_of_head
    rintro d hd
    rw [head_join] at hd
    rw [← Option.some.inj hd]
    exact h.head c List.mem_cons_self

theorem word_append {w s : List α} (hw : ∀ c ∈ w, sep c = false) (hs : ∀ c ∈ s.head?, sep c = true) :
    word sep (w ++ s) = w ∧ past sep (w ++ s) = s := by
  have hpos : ∀ c ∈ w, (!sep c) = true := fun c hc => by rw [hw c hc]; rfl
  unfold word past
  rw [List.takeWhile_append_of_pos hpos, List.dropWhile_append_of_pos hpos]
  cases s with
  | nil => simp
  | cons c s => simp [hs c rfl]

/-- It takes the first word that is not empty, -/
theorem word_join (hblank : sep blank = true) {w : List α} {ws : List (List α)} (h : Plain sep (w :: ws)) :
    word sep (join blank (w :: ws)) = w := by
  cases ws with
  | nil =>
    have hword := (word_append (s := []) h.head nofun).1
    rwa [List.append_nil] at hword
  | cons v ws =>
    rw [join_cons w (List.cons_ne_nil v ws)]
    refine (word_append h.head ?_).1
    rintro c hc
    rwa [← Option.some.inj hc]

/-- and goes on to the next. -/
theorem skip_past_join (hblank : sep blank = true) {w : List α} {ws : List (List α)} (h : Plain sep (w :: ws)) :
    skip sep (past sep (join blank (w :: ws))) = join blank (ws.dropWhile List.isEmpty) := by
  cases ws with
  | nil =>
    have hpast := (word_append (s := []) h.head nofun).2
    rw [List.append_nil] at hpast
    rw [show join blank [w] = w from rfl, hpast]
    rfl
  | cons v ws =>
    have hhead : ∀ c ∈ (blank :: join blank (v :: ws)).head?, sep c = true := by
      rintro c hc
      rwa [← Option.some.inj hc]
    rw [join_cons w (List.cons_ne_nil v ws), (word_append h.head hhead).2, skip, List.dropWhile_cons_of_pos hblank]
    exact skip_join hblank h.tail

end Fields
