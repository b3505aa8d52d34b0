import Mathlib.Data.List.DropRight

/-! Trimming a list at both ends of the elements of a class, and splitting at a
separator outside of the class. -/
namespace Coding

variable {α : Type} (p : α → Bool)

def trimStart (s : List α) : List α := s.dropWhile p

def trimEnd (s : List α) : List α := s.rdropWhile p

def trim (s : List α) : List α := trimEnd p (trimStart p s)

/-- All elements are in the class. -/
def Blank (s : List α) : Prop := ∀ x ∈ s, p x = true

instance (s : List α) : Decidable (Blank p s) := inferInstanceAs (Decidable (∀ x ∈ s, p x = true))

/-- Neither end is in the class. -/
def Trimmed (s : List α) : Prop := trim p s = s

section Ends

variable {p} {s a b : List α}

theorem blank_nil : Blank p [] := by
  intro x mem
  cases mem

theorem Blank.append (ha : Blank p a) (hb : Blank p b) : Blank p (a ++ b) := by
  intro x mem
  rcases List.mem_append.mp mem with mem | mem
  · exact ha x mem
  · exact hb x mem

theorem trimStart_blank (blank : Blank p a) (s : List α) :
    trimStart p (a ++ s) = trimStart p s := by
  induction a with
  | nil => rfl
  | cons x a ih =>
    have head := blank x List.mem_cons_self
    have tail := ih fun y mem => blank y (List.mem_cons_of_mem _ mem)
    simpa [trimStart, head] using tail

theorem trimEnd_blank (blank : Blank p b) (s : List α) : trimEnd p (s ++ b) = trimEnd p s := by
  have reversed : Blank p b.reverse := fun x mem => blank x (List.mem_reverse.mp mem)
  have start := trimStart_blank reversed s.reverse
  simp only [trimEnd, List.rdropWhile, List.reverse_append]
  exact congrArg List.reverse start

/-- An element outside of the class stops the trimming. -/
theorem trimStart_solid {x : α} (solid : p x = false) (s : List α) :
    trimStart p (x :: s) = x :: s := by
  simp [trimStart, solid]

theorem trimEnd_solid {x : α} (solid : p x = false) (s : List α) :
    trimEnd p (s ++ [x]) = s ++ [x] :=
  List.rdropWhile_concat_neg p s x (by simp [solid])

theorem trimStart_split (s : List α) : ∃ a, Blank p a ∧ s = a ++ trimStart p s := by
  refine ⟨s.takeWhile p, ?_, (List.takeWhile_append_dropWhile).symm⟩
  intro x mem
  exact List.mem_takeWhile_imp mem

theorem trimEnd_split (s : List α) : ∃ b, Blank p b ∧ s = trimEnd p s ++ b := by
  refine ⟨s.rtakeWhile p, ?_, List.rdropWhile_append_rtakeWhile.symm⟩
  intro x mem
  exact List.mem_rtakeWhile_imp mem

theorem trim_split (s : List α) : ∃ a b, Blank p a ∧ Blank p b ∧ s = a ++ trim p s ++ b := by
  obtain ⟨a, ha, start⟩ := trimStart_split (p := p) s
  obtain ⟨b, hb, stop⟩ := trimEnd_split (p := p) (trimStart p s)
  refine ⟨a, b, ha, hb, ?_⟩
  rw [List.append_assoc]
  exact start.trans (congrArg (a ++ ·) stop)

theorem trimStart_eq_nil_iff : trimStart p s = [] ↔ Blank p s := List.dropWhile_eq_nil_iff

theorem trim_eq_nil_iff : trim p s = [] ↔ Blank p s := by
  constructor
  · intro none
    obtain ⟨a, b, ha, hb, split⟩ := trim_split (p := p) s
    rw [none, List.append_nil] at split
    exact split ▸ ha.append hb
  · intro blank
    rw [trim, trimStart_eq_nil_iff.mpr blank]
    rfl

theorem trim_of_blank (blank : Blank p s) : trim p s = [] := trim_eq_nil_iff.mpr blank

/-- Trimming one end leaves the other as it is. -/
theorem trimStart_append_of_not_blank (some : ¬ Blank p s) (t : List α) :
    trimStart p (s ++ t) = trimStart p s ++ t := by
  induction s with
  | nil => exact absurd blank_nil some
  | cons x s ih =>
    cases hx : p x with
    | false => simp [trimStart, hx]
    | true =>
      have rest : ¬ Blank p s := by
        intro blank
        apply some
        intro y mem
        rcases List.mem_cons.mp mem with rfl | mem
        · exact hx
        · exact blank y mem
      simpa [trimStart, hx] using ih rest

theorem trimEnd_append_of_not_blank (some : ¬ Blank p s) (t : List α) :
    trimEnd p (t ++ s) = t ++ trimEnd p s := by
  have reversed : ¬ Blank p s.reverse := fun blank =>
    some fun x mem => blank x (List.mem_reverse.mpr mem)
  have start := trimStart_append_of_not_blank reversed t.reverse
  simp only [trimEnd, List.rdropWhile, List.reverse_append]
  rw [show (s.reverse ++ t.reverse).dropWhile p = _ from start, List.reverse_append,
    List.reverse_reverse]
  rfl

theorem trim_blank (ha : Blank p a) (hb : Blank p b) (s : List α) :
    trim p (a ++ s ++ b) = trim p s := by
  rw [trim, trim, List.append_assoc, trimStart_blank ha]
  by_cases blank : Blank p s
  · rw [trimStart_eq_nil_iff.mpr blank, trimStart_eq_nil_iff.mpr (blank.append hb)]
  · rw [trimStart_append_of_not_blank blank, trimEnd_blank hb]

theorem solid_of_trimStart {x : α} {t : List α} (start : trimStart p s = x :: t) : p x = false := by
  induction s with
  | nil => cases start
  | cons y s ih =>
    cases hy : p y with
    | false =>
      rw [trimStart_solid hy] at start
      exact (List.cons.inj start).1 ▸ hy
    | true =>
      apply ih
      simpa [trimStart, hy] using start

/-- The ends can be trimmed in either order. -/
theorem trimStart_trimEnd (s : List α) : trimStart p (trimEnd p s) = trim p s := by
  by_cases blank : Blank p s
  · have none : trimEnd p s = [] := List.rdropWhile_eq_nil_iff.mpr blank
    rw [none, trim_of_blank blank]
    rfl
  · obtain ⟨a, ha, split⟩ := trimStart_split (p := p) s
    have some : ¬ Blank p (trimStart p s) := by
      intro rest
      apply blank
      rw [split]
      exact ha.append rest
    have stop : trimEnd p s = a ++ trim p s := by
      have both := trimEnd_append_of_not_blank some a
      rwa [← split] at both
    rw [stop, trimStart_blank ha]
    -- what is left starts where the start was trimmed
    cases start : trimStart p s with
    | nil => exact absurd (trimStart_eq_nil_iff.mp start) blank
    | cons x t =>
      have solid := solid_of_trimStart start
      rw [trim, start]
      cases kept : trimEnd p (x :: t) with
      | nil => rfl
      | cons y u =>
        obtain ⟨b, -, whole⟩ := trimEnd_split (p := p) (x :: t)
        rw [kept, List.cons_append] at whole
        rw [(List.cons.inj whole).1] at solid
        exact trimStart_solid solid u

theorem trim_trimStart (s : List α) : trim p (trimStart p s) = trim p s := by
  have start : trimStart p (trimStart p s) = trimStart p s := List.dropWhile_idempotent p s
  rw [trim, start]
  rfl

theorem trim_trimEnd (s : List α) : trim p (trimEnd p s) = trim p s := by
  have ends : trimEnd p (trim p s) = trim p s := List.rdropWhile_idempotent p (trimStart p s)
  rw [trim, trimStart_trimEnd, ends]

/-- Around an element outside of the class each side keeps one end. -/
theorem trimStart_around {x : α} (solid : p x = false) (s t : List α) :
    trimStart p (s ++ x :: t) = trimStart p s ++ x :: t := by
  by_cases blank : Blank p s
  · rw [trimStart_blank blank, trimStart_solid solid, trimStart_eq_nil_iff.mpr blank]
    rfl
  · exact trimStart_append_of_not_blank blank (x :: t)

theorem trimEnd_around {x : α} (solid : p x = false) (s t : List α) :
    trimEnd p (s ++ x :: t) = s ++ x :: trimEnd p t := by
  have shape (t : List α) : s ++ x :: t = (s ++ [x]) ++ t := by simp
  by_cases blank : Blank p t
  · have none : trimEnd p t = [] := List.rdropWhile_eq_nil_iff.mpr blank
    rw [shape t, trimEnd_blank blank, trimEnd_solid solid, none]
  · rw [shape t, trimEnd_append_of_not_blank blank]
    simp

theorem trim_around {x : α} (solid : p x = false) (s t : List α) :
    trim p (s ++ x :: t) = trimStart p s ++ x :: trimEnd p t := by
  rw [trim, trimStart_around solid, trimEnd_around solid]

/-- The first element of a list that is not all blank stays at the other end. -/
theorem trimEnd_cons {x : α} (some : ¬ Blank p (x :: s)) :
    trimEnd p (x :: s) = x :: trimEnd p s := by
  by_cases blank : Blank p s
  · cases solid : p x with
    | false => exact trimEnd_around solid [] s
    | true =>
      have whole : Blank p (x :: s) := by simpa [Blank, solid] using blank
      exact absurd whole some
  · exact trimEnd_append_of_not_blank blank [x]

section Trimmed

variable {w : List α} (trimmed : Trimmed p w)

include trimmed

theorem trimStart_trimmed : trimStart p w = w := by
  have start := trimStart_trimEnd (p := p) (trimStart p w)
  rw [trim_trimStart] at start
  change trimStart p (trim p w) = trim p w at start
  rwa [trimmed] at start

theorem trimEnd_trimmed : trimEnd p w = w := by
  have stop : trimEnd p (trim p w) = trim p w := List.rdropWhile_idempotent p (trimStart p w)
  rwa [trimmed] at stop

theorem Trimmed.not_blank (some : w ≠ []) : ¬ Blank p w := by
  intro blank
  rw [← trimmed, trim_of_blank blank] at some
  exact some rfl

/-- A word keeps the text in front of it and that behind it apart. -/
theorem trimStart_word (ha : Blank p a) (some : w ≠ []) (t : List α) :
    trimStart p (a ++ w ++ t) = w ++ t := by
  have solid := trimmed.not_blank some
  rw [List.append_assoc, trimStart_blank ha, trimStart_append_of_not_blank solid,
    trimStart_trimmed trimmed]

theorem trimEnd_word (t : List α) : trimEnd p (w ++ t) = w ++ trimEnd p t := by
  by_cases blank : Blank p t
  · have none : trimEnd p t = [] := List.rdropWhile_eq_nil_iff.mpr blank
    rw [trimEnd_blank blank, trimEnd_trimmed trimmed, none, List.append_nil]
  · exact trimEnd_append_of_not_blank blank w

theorem trim_word (ha : Blank p a) (some : w ≠ []) (t : List α) :
    trim p (a ++ w ++ t) = w ++ trimEnd p t := by
  rw [trim, trimStart_word trimmed ha some, trimEnd_word trimmed]

end Trimmed

end Ends

section Splitting

theorem mem_intercalate {sep x : α} {texts : List (List α)}
    (mem : x ∈ [sep].intercalate texts) : x = sep ∨ ∃ text ∈ texts, x ∈ text := by
  induction texts with
  | nil => cases mem
  | cons text texts ih =>
    cases texts with
    | nil => exact .inr ⟨text, List.mem_cons_self, by simpa using mem⟩
    | cons next texts =>
      rw [List.intercalate_cons_cons, List.append_assoc] at mem
      rcases List.mem_append.mp mem with mem | mem
      · exact .inr ⟨text, List.mem_cons_self, mem⟩
      rcases List.mem_append.mp mem with mem | mem
      · exact .inl (List.mem_singleton.mp mem)
      · rcases ih mem with same | ⟨other, member, mem⟩
        · exact .inl same
        · exact .inr ⟨other, List.mem_cons_of_mem _ member, mem⟩

variable {p} [DecidableEq α]

/-- Splitting what is surrounded by blanks gives the same pieces up to trimming. -/
theorem map_trim_splitOn_blank {sep : α} (solid : p sep = false) {a b : List α} (ha : Blank p a)
    (hb : Blank p b) (s : List α) :
    ((a ++ s ++ b).splitOn sep).map (trim p) = (s.splitOn sep).map (trim p) := by
  by_cases mem : sep ∈ s
  · obtain ⟨x, y, split⟩ := List.append_of_mem mem
    have first : x.length < s.length := by simp [split]
    have second : y.length < s.length := by
      simp [split]
      omega
    have left := map_trim_splitOn_blank solid ha blank_nil x
    have right := map_trim_splitOn_blank solid blank_nil hb y
    simp only [List.append_nil, List.nil_append] at left right
    have shape : a ++ s ++ b = (a ++ x) ++ sep :: (y ++ b) := by simp [split]
    rw [shape, split, List.splitOn_append_cons_self, List.splitOn_append_cons_self, List.map_append,
      List.map_append, left, right]
  · have apart : sep ∉ a ++ s ++ b := by
      intro inside
      rcases List.mem_append.mp inside with inside | inside
      · rcases List.mem_append.mp inside with inside | inside
        · simp [ha sep inside] at solid
        · exact mem inside
      · simp [hb sep inside] at solid
    rw [List.splitOn_eq_singleton apart, List.splitOn_eq_singleton mem, List.map_singleton,
      List.map_singleton, trim_blank ha hb]
termination_by s.length

theorem map_trim_splitOn_trim {sep : α} (solid : p sep = false) (s : List α) :
    ((trim p s).splitOn sep).map (trim p) = (s.splitOn sep).map (trim p) := by
  obtain ⟨a, b, ha, hb, split⟩ := trim_split (p := p) s
  have same := map_trim_splitOn_blank solid ha hb (trim p s)
  rw [← split] at same
  exact same.symm

/-- Words between blanks, joined by separators behind more blanks, are what splitting and trimming
leaves. -/
theorem words_splitOn_intercalate {β : Type} {sep : α} (solid : p sep = false) {a : List α}
    (ha : Blank p a) {render word : β → List α} (apart : ∀ x, sep ∉ render x)
    (trimmed : ∀ x, trim p (render x) = word x) (some : ∀ x, word x ≠ []) (xs : List β) :
    (((a ++ [sep].intercalate (xs.map render)).splitOn sep).map (trim p)).filter
      (fun text => !text.isEmpty) = xs.map word := by
  have start := map_trim_splitOn_blank solid ha blank_nil ([sep].intercalate (xs.map render))
  rw [List.append_nil] at start
  rw [start]
  cases xs with
  | nil => rfl
  | cons x xs =>
    have each : ∀ text ∈ (x :: xs).map render, sep ∉ text := by
      intro text mem
      obtain ⟨y, -, rfl⟩ := List.mem_map.mp mem
      exact apart y
    have texts : ((x :: xs).map render).map (trim p) = (x :: xs).map word := by
      rw [List.map_map]
      exact List.map_congr_left fun y _ => trimmed y
    rw [List.splitOn_intercalate sep each (by simp), texts, List.filter_eq_self]
    intro text mem
    obtain ⟨y, -, rfl⟩ := List.mem_map.mp mem
    simp [some y]

end Splitting

end Coding
