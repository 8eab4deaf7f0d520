import Mathlib.Data.List.DropRight

/-!
# EighthLayer.Lib.Trim

Lists without the elements of a kind at their two ends.

Trimming a wider kind after a narrower one is trimming the wider one (`trim_trim`).
-/

namespace Lib

variable {α : Type}

/-- `s` without the elements of `p` at its ends. -/
def trim (p : α → Bool) (s : List α) : List α := (s.dropWhile p).rdropWhile p

@[simp] theorem trim_nil (p : α → Bool) : trim p [] = [] := rfl

theorem trim_sublist (p : α → Bool) (s : List α) : (trim p s).Sublist s :=
  (List.rdropWhile_prefix p _).sublist.trans (List.dropWhile_sublist p)

theorem mem_of_mem_trim {p : α → Bool} {s : List α} {x : α} (h : x ∈ trim p s) : x ∈ s :=
  (trim_sublist p s).subset h

theorem length_trim_le (p : α → Bool) (s : List α) : (trim p s).length ≤ s.length :=
  (trim_sublist p s).length_le

theorem dropWhile_eq_self_of_head {p : α → Bool} {s : List α}
    (h : ∀ x ∈ s.head?, p x = false) : s.dropWhile p = s := by
  cases s with
  | nil => rfl
  | cons x s => rw [List.dropWhile_cons, h x rfl, if_neg Bool.false_ne_true]

theorem head_dropWhile {p : α → Bool} {s : List α} {x : α} (h : x ∈ (s.dropWhile p).head?) :
    p x = false := by
  induction s with
  | nil => cases h
  | cons y s ih =>
      rw [List.dropWhile_cons] at h
      split at h
      · exact ih h
      · rename_i hy
        rw [List.head?_cons, Option.mem_some_iff] at h
        exact h ▸ Bool.eq_false_iff.mpr hy

theorem head_eq_of_start {s t : List α} {x : α} (hpre : s <+: t) (h : x ∈ s.head?) :
    x ∈ t.head? := by
  obtain ⟨rest, rfl⟩ := hpre
  cases s with
  | nil => cases h
  | cons y s => exact h

/-- A trimmed list does not begin with an element of the kind. -/
theorem head_trim {p : α → Bool} {s : List α} {x : α} (h : x ∈ (trim p s).head?) : p x = false :=
  head_dropWhile (head_eq_of_start (List.rdropWhile_prefix p _) h)

/-- Nor does it end with one. -/
theorem getLast_trim {p : α → Bool} {s : List α} {x : α} (h : x ∈ (trim p s).getLast?) :
    p x = false := by
  rw [trim, List.rdropWhile, List.getLast?_reverse] at h
  exact head_dropWhile h

/-- Nothing is trimmed off an end that is not of the kind. -/
theorem rdropWhile_eq_self_iff {p : α → Bool} {s : List α} :
    s.rdropWhile p = s ↔ ∀ x ∈ s.getLast?, p x = false := by
  constructor
  · intro h x hx
    rw [← h, List.rdropWhile, List.getLast?_reverse] at hx
    exact head_dropWhile hx
  · intro h
    rw [List.rdropWhile, dropWhile_eq_self_of_head fun x hx => h x (by rwa [List.head?_reverse] at hx),
      List.reverse_reverse]

/-- What is left after a trimming of the end, from the front. -/
theorem rdropWhile_cons (p : α → Bool) (x : α) (s : List α) :
    (x :: s).rdropWhile p =
      if s.rdropWhile p = [] ∧ p x = true then [] else x :: s.rdropWhile p := by
  induction s using List.reverseRecOn with
  | nil => by_cases hx : p x = true <;> simp [hx]
  | append_singleton s y ih =>
      rw [← List.cons_append, List.rdropWhile_concat, List.rdropWhile_concat]
      by_cases hy : p y = true
      · rw [if_pos hy, if_pos hy, ih]
      · rw [if_neg hy, if_neg hy, if_neg (by simp), List.cons_append]

/-- The two ends of a list are trimmed in any order. -/
theorem dropWhile_rdropWhile {p q : α → Bool} (hqp : ∀ x, q x = true → p x = true)
    (s : List α) : (s.rdropWhile q).dropWhile p = (s.dropWhile p).rdropWhile q := by
  induction s with
  | nil => rfl
  | cons x s ih =>
      rw [rdropWhile_cons, List.dropWhile_cons]
      by_cases hx : p x = true
      · rw [if_pos hx, ← ih]
        by_cases hall : s.rdropWhile q = [] ∧ q x = true
        · rw [if_pos hall, hall.1]
        · rw [if_neg hall, List.dropWhile_cons, if_pos hx]
      · have hq : ¬ q x = true := fun hq => hx (hqp x hq)
        rw [if_neg hx, if_neg fun h => hq h.2, List.dropWhile_cons, if_neg hx, rdropWhile_cons,
          if_neg fun h => hq h.2]

theorem dropWhile_dropWhile {p q : α → Bool} (hqp : ∀ x, q x = true → p x = true)
    (s : List α) : (s.dropWhile q).dropWhile p = s.dropWhile p := by
  induction s with
  | nil => rfl
  | cons x s ih =>
      by_cases hx : q x = true
      · rw [List.dropWhile_cons, if_pos hx, ih, List.dropWhile_cons, if_pos (hqp x hx)]
      · rw [List.dropWhile_cons, if_neg hx]

theorem rdropWhile_rdropWhile {p q : α → Bool} (hqp : ∀ x, q x = true → p x = true)
    (s : List α) : (s.rdropWhile q).rdropWhile p = s.rdropWhile p := by
  unfold List.rdropWhile
  rw [List.reverse_reverse, dropWhile_dropWhile hqp]

/-- **A wider trimming takes in a narrower one.** -/
theorem trim_trim {p q : α → Bool} (hqp : ∀ x, q x = true → p x = true) (s : List α) :
    trim p (trim q s) = trim p s := by
  unfold trim
  rw [dropWhile_rdropWhile hqp, rdropWhile_rdropWhile hqp, dropWhile_dropWhile hqp]

/-- The trimming of a list that does not begin with an element of the kind. -/
theorem trim_of_head {p : α → Bool} {s : List α} (h : ∀ x ∈ s.head?, p x = false) :
    trim p s = s.rdropWhile p := by
  rw [trim, dropWhile_eq_self_of_head h]

/-- The end may be trimmed before. -/
theorem trim_rdropWhile (p : α → Bool) (s : List α) : trim p (s.rdropWhile p) = trim p s := by
  unfold trim
  rw [dropWhile_rdropWhile fun _ hx => hx, rdropWhile_rdropWhile fun _ hx => hx]

/-- What is of the kind is trimmed off the end. -/
theorem trim_append_of_forall {p : α → Bool} {t : List α} (h : ∀ x ∈ t, p x = true) (s : List α) :
    trim p (s ++ t) = trim p s := by
  induction t using List.reverseRecOn with
  | nil => rw [List.append_nil]
  | append_singleton t x ih =>
      have hx : p x = true := h x (List.mem_append_right _ List.mem_cons_self)
      rw [← List.append_assoc, ← trim_rdropWhile, List.rdropWhile_concat_pos _ _ _ hx,
        trim_rdropWhile]
      exact ih fun y hy => h y (List.mem_append_left _ hy)

/-- Nothing is left of a list exactly if all its elements are of the kind. -/
theorem trim_eq_nil_iff {p : α → Bool} {s : List α} : trim p s = [] ↔ ∀ x ∈ s, p x = true := by
  rw [trim, List.rdropWhile_eq_nil_iff]
  constructor
  · intro h
    cases hrest : s.dropWhile p with
    | nil => exact List.dropWhile_eq_nil_iff.mp hrest
    | cons x rest =>
        have hx : p x = false := head_dropWhile (s := s) (by rw [hrest]; rfl)
        have hx' := h x (by rw [hrest]; exact List.mem_cons_self)
        rw [hx] at hx'
        cases hx'
  · intro h x hx
    rw [List.dropWhile_eq_nil_iff.mpr h] at hx
    cases hx

end Lib
