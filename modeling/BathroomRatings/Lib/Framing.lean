import BathroomRatings.Lib.Strings

/-!
# Heads of lines

A head is a sequence of lines, each ended by a two-symbol line end; a doubled line
end closes the head, and arbitrary data follow.  Lines that are nonempty and free of
both symbols can be read back whatever the data are, because no doubled line end
occurs before the closing one.
-/

set_option autoImplicit false

namespace BathroomRatings.Lib.Framing

open BathroomRatings.Lib.Strings

section Encoding

variable {α : Type*} (cr lf : α)

/-- The head with lines `first :: more`, and the data behind it. -/
def framed (first : List α) (more : List (List α)) (data : List α) : List α :=
  first ++ [cr, lf] ++ more.flatMap (fun line => line ++ [cr, lf]) ++ [cr, lf] ++ data

def joined : List α → List (List α) → List α
  | first, [] => first
  | first, next :: more => first ++ cr :: lf :: joined next more

structure IsLine (line : List α) : Prop where
  nonempty : line ≠ []
  noReturn : cr ∉ line
  noFeed : lf ∉ line

theorem framed_cons (first next : List α) (more : List (List α)) (data : List α) :
    framed cr lf first (next :: more) data =
      first ++ cr :: lf :: framed cr lf next more data := by
  simp [framed]

theorem framed_eq (first : List α) (more : List (List α)) (data : List α) :
    framed cr lf first more data =
      joined cr lf first more ++ [cr, lf, cr, lf] ++ data := by
  induction more generalizing first with
  | nil => simp [framed, joined]
  | cons next more ih => simp [framed_cons, joined, ih]

theorem joined_append (first : List α) (more : List (List α)) :
    joined cr lf first more ++ [cr, lf] =
      (first :: more).flatMap fun line => line ++ [cr, lf] := by
  induction more generalizing first with
  | nil => simp [joined]
  | cons next more ih => simp [joined, ih next]

end Encoding

section Decoding

variable {α : Type*} [DecidableEq α] {cr lf : α}

/-- The first doubled line end is the one that closes the head. -/
theorem find_framed (distinct : cr ≠ lf) (first : List α) (more : List (List α))
    (data : List α) (shape : ∀ line ∈ first :: more, IsLine cr lf line) :
    find [cr, lf, cr, lf] (framed cr lf first more data) =
      some (joined cr lf first more).length := by
  induction more generalizing first with
  | nil =>
      have line := shape first List.mem_cons_self
      have here : find [cr, lf, cr, lf] (cr :: lf :: cr :: lf :: data) = some 0 :=
        (find_eq_zero_iff _ _).mpr ⟨data, rfl⟩
      rw [framed_eq, joined, List.append_assoc, find_skip _ _ _ _ line.noReturn]
      simp [here]
  | cons next more ih =>
      have line := shape first List.mem_cons_self
      have inner := ih next fun other member => shape other (List.mem_cons_of_mem _ member)
      obtain ⟨c, tail, begins, differs⟩ : ∃ c tail,
          framed cr lf next more data = c :: tail ∧ cr ≠ c := by
        have nextLine := shape next (by simp)
        obtain ⟨c, rest, split⟩ := List.exists_cons_of_ne_nil nextLine.nonempty
        refine ⟨c, _, by rw [framed, split]; rfl, ?_⟩
        intro same
        exact nextLine.noReturn (by simp [split, same])
      -- Neither of the two symbols of the line end starts a doubled line end.
      have step : find [cr, lf, cr, lf] (cr :: lf :: framed cr lf next more data) =
          (find [cr, lf, cr, lf] (framed cr lf next more data)).map (· + 2) := by
        rw [begins]
        simp [find, differs, distinct, Function.comp_def]
      rw [framed_cons, find_skip _ _ _ _ line.noReturn, step, inner]
      simp [joined]
      omega

def splitLines (cr lf : α) : List α → List (List α)
  | [] => [[]]
  | [c] => [[c]]
  | c :: d :: rest =>
      if c = cr ∧ d = lf then [] :: splitLines cr lf rest
      else
        match splitLines cr lf (d :: rest) with
        | [] => []
        | line :: more => (c :: line) :: more

theorem splitLines_end (rest : List α) :
    splitLines cr lf (cr :: lf :: rest) = [] :: splitLines cr lf rest := by
  simp [splitLines]

theorem splitLines_line (line rest : List α) (free : cr ∉ line) :
    splitLines cr lf (line ++ cr :: lf :: rest) = line :: splitLines cr lf rest := by
  induction line with
  | nil => exact splitLines_end rest
  | cons c line ih =>
      have differs : c ≠ cr := fun same => free (by simp [same])
      have tail := ih fun member => free (List.mem_cons_of_mem c member)
      cases line with
      | nil => simp [splitLines, differs]
      | cons d line =>
          rw [List.cons_append] at tail
          simp [splitLines, differs, tail]

theorem splitLines_free (line : List α) (free : cr ∉ line) :
    splitLines cr lf line = [line] := by
  induction line with
  | nil => rfl
  | cons c line ih =>
      have differs : c ≠ cr := fun same => free (by simp [same])
      have tail := ih fun member => free (List.mem_cons_of_mem c member)
      cases line with
      | nil => rfl
      | cons d line => simp [splitLines, differs, tail]

theorem splitLines_joined (first : List α) (more : List (List α))
    (free : ∀ line ∈ first :: more, cr ∉ line) :
    splitLines cr lf (joined cr lf first more) = first :: more := by
  induction more generalizing first with
  | nil => exact splitLines_free first (free first List.mem_cons_self)
  | cons next more ih =>
      rw [joined, splitLines_line _ _ (free first List.mem_cons_self),
        ih next fun line member => free line (List.mem_cons_of_mem _ member)]

/-- Cut at the first doubled line end, split the front into lines. -/
def unframed (cr lf : α) (s : List α) : Option (List (List α) × List α) :=
  match find [cr, lf, cr, lf] s with
  | none => none
  | some headEnd => some (splitLines cr lf (s.take headEnd), s.drop (headEnd + 4))

theorem unframed_framed (distinct : cr ≠ lf) (first : List α) (more : List (List α))
    (data : List α) (shape : ∀ line ∈ first :: more, IsLine cr lf line) :
    unframed cr lf (framed cr lf first more data) = some (first :: more, data) := by
  have front : (framed cr lf first more data).take (joined cr lf first more).length =
      joined cr lf first more := by
    rw [framed_eq, List.append_assoc, List.take_left]
  have back : (framed cr lf first more data).drop
      ((joined cr lf first more).length + 4) = data := by
    rw [framed_eq]
    exact List.drop_left' (by simp)
  rw [unframed, find_framed distinct first more data shape]
  simp only [front, back]
  rw [splitLines_joined first more fun line member => (shape line member).noReturn]

/-- Line reads that end at `lf` alone find the same lines, each with its `cr`. -/
theorem lines_ended (distinct : cr ≠ lf) (all : List (List α))
    (shape : ∀ line ∈ all, IsLine cr lf line) :
    lines lf (all.flatMap fun line => line ++ [cr, lf]) =
      all.map fun line => line ++ [cr] := by
  induction all with
  | nil => rfl
  | cons line all ih =>
      have free : lf ∉ line ++ [cr] := by
        simp [(shape line List.mem_cons_self).noFeed, distinct.symm]
      have tail := ih fun other member => shape other (List.mem_cons_of_mem _ member)
      have parts : (line :: all).flatMap (fun line => line ++ [cr, lf]) =
          (line ++ [cr]) ++ lf :: all.flatMap (fun line => line ++ [cr, lf]) := by
        simp
      rw [parts, lines_append_delimiter lf _ _ free, tail]
      rfl

end Decoding
end BathroomRatings.Lib.Framing
