import BathroomRatings.Api.Calls

/-!
# Urls and targets

How the url of a request becomes an entity name and an id.  Behind a location path
that ends where a slash or nothing follows, the segments are the pieces of the
remainder; elsewhere the location path is not removed.  Identifiers are exact as long
as they fit into an `int`.
-/

set_option autoImplicit false

namespace BathroomRatings.Api

open BathroomRatings.Http BathroomRatings.Lib.Decimal BathroomRatings.Lib.Interface
open BathroomRatings.Lib.Strings BathroomRatings.Lib.Word BathroomRatings.Store

/-! ## The segments -/

theorem bne_of_plain {path : Text} (plain : '?' ∉ path) :
    ∀ c ∈ path, (c != '?') = true := by
  intro c member
  have differs : c ≠ '?' := fun same => plain (same ▸ member)
  simp [differs]

theorem cutQuery_eq (url : Text) : cutQuery url = url.takeWhile (· != '?') := by
  have mark : ∀ rest : Text, find ['?'] ('?' :: rest) = some 0 := fun rest =>
    (find_eq_zero_iff _ _).mpr ⟨rest, rfl⟩
  rcases split_at_first (· == '?') url with free | ⟨before, c, rest, rfl, here, free⟩
  · have plain : '?' ∉ url := fun member => by simpa using free _ member
    have absent := find_skip [] url [] '?' plain
    rw [List.append_nil] at absent
    rw [cutQuery, absent]
    simp [find, List.takeWhile_eq_self_iff.mpr (bne_of_plain plain)]
  · obtain rfl : c = '?' := by simpa using here
    have plain : '?' ∉ before := fun member => by simpa using free _ member
    rw [cutQuery, find_skip [] before _ '?' plain, mark,
      List.takeWhile_append_of_pos (bne_of_plain plain)]
    simp

theorem cutQuery_append (path query : Text) (plain : '?' ∉ path)
    (begins : query = [] ∨ query.head? = some '?') : cutQuery (path ++ query) = path := by
  rw [cutQuery_eq, List.takeWhile_append_of_pos (bne_of_plain plain)]
  rcases begins with empty | mark
  · simp [empty]
  · obtain ⟨rest, rfl⟩ := List.head?_eq_some_iff.mp mark
    simp

theorem extractSegments_eq (urlPrefix url : Text) :
    extractSegments urlPrefix url = pieces '/' (stripUrlPrefix urlPrefix (cutQuery url)) := by
  rw [extractSegments, trimSlashes, pieces_rdropWhile, pieces_dropWhile]

theorem stripUrlPrefix_boundary (urlPrefix remainder : Text)
    (boundary : remainder = [] ∨ remainder.head? = some '/') :
    stripUrlPrefix urlPrefix (urlPrefix ++ remainder) = remainder := by
  unfold stripUrlPrefix
  by_cases empty : urlPrefix = []
  · simp [empty]
  · have stripped : (urlPrefix ++ remainder).length = urlPrefix.length ∨
        (urlPrefix ++ remainder)[urlPrefix.length]? = some '/' := by
      rcases boundary with nothing | slash
      · exact Or.inl (by simp [nothing])
      · refine Or.inr ?_
        rw [List.getElem?_append_right le_rfl, Nat.sub_self, ← List.head?_eq_getElem?, slash]
    rw [if_pos ⟨empty, List.prefix_append _ _⟩, if_pos stripped, List.drop_left]

/-- Nothing is removed where another character than a slash follows the prefix, or
where the query begins inside it. -/
theorem stripUrlPrefix_inside (urlPrefix path : Text)
    (inside : ∀ remainder, path = urlPrefix ++ remainder →
      ∃ c rest, remainder = c :: rest ∧ c ≠ '/') :
    stripUrlPrefix urlPrefix path = path := by
  unfold stripUrlPrefix
  split
  · rename_i begins
    obtain ⟨remainder, rfl⟩ := begins.2
    obtain ⟨c, rest, rfl, differs⟩ := inside remainder rfl
    simp [differs]
  · rfl

/-- The url is the prefix, a remainder that is empty or begins with a slash, and
perhaps a query. -/
structure Located (urlPrefix remainder query url : Text) : Prop where
  parts : url = urlPrefix ++ remainder ++ query
  plainPrefix : '?' ∉ urlPrefix
  plainRemainder : '?' ∉ remainder
  boundary : remainder = [] ∨ remainder.head? = some '/'
  mark : query = [] ∨ query.head? = some '?'

theorem Located.segments {urlPrefix remainder query url : Text}
    (located : Located urlPrefix remainder query url) :
    extractSegments urlPrefix url =
      (remainder.splitOn '/').filter (fun piece => !piece.isEmpty) := by
  have plain : '?' ∉ urlPrefix ++ remainder := by
    simp [located.plainPrefix, located.plainRemainder]
  rw [extractSegments_eq, located.parts, cutQuery_append _ _ plain located.mark,
    stripUrlPrefix_boundary _ _ located.boundary, pieces_eq_splitOn]

theorem handleRequest_congr {m : Type → Type} [Monad m] (entityStore : EntityStore m)
    (isValidJson : Text → Bool) (urlPrefix : Text) (first second : Request)
    (segments : extractSegments urlPrefix first.url = extractSegments urlPrefix second.url)
    (method : first.method = second.method) (body : first.body = second.body) :
    handleRequest entityStore isValidJson urlPrefix first =
      handleRequest entityStore isValidJson urlPrefix second := by
  simp only [handleRequest, segments, method, body]

/-- The segments are the nonempty pieces of the remainder, and nothing else about the
url matters. -/
theorem segments_of_remainder (urlPrefix : Text) :
    (∀ remainder query url, Located urlPrefix remainder query url →
      extractSegments urlPrefix url =
        (remainder.splitOn '/').filter (fun piece => !piece.isEmpty)) ∧
    ∀ (m : Type → Type) [Monad m] (entityStore : EntityStore m) (isValidJson : Text → Bool)
      (first second : Request) (remainder query otherRemainder otherQuery : Text),
      Located urlPrefix remainder query first.url →
      Located urlPrefix otherRemainder otherQuery second.url →
      (remainder.splitOn '/').filter (fun piece => !piece.isEmpty) =
        (otherRemainder.splitOn '/').filter (fun piece => !piece.isEmpty) →
      first.method = second.method → first.body = second.body →
      handleRequest entityStore isValidJson urlPrefix first =
        handleRequest entityStore isValidJson urlPrefix second := by
  refine ⟨fun _ _ _ located => located.segments, ?_⟩
  intro m _ entityStore isValidJson first second _ _ _ _ located other same method body
  have segments : extractSegments urlPrefix first.url =
      extractSegments urlPrefix second.url := by
    rw [located.segments, other.segments, same]
  exact handleRequest_congr entityStore isValidJson urlPrefix first second segments method body

theorem segments_of_remainder_slashes :
    extractSegments "/api".toList "/api//Shoes/1/?a=/b".toList =
      ("//Shoes/1/".toList.splitOn '/').filter (fun piece => !piece.isEmpty) :=
  (segments_of_remainder "/api".toList).1 "//Shoes/1/".toList "?a=/b".toList _
    ⟨by decide, by decide, by decide, Or.inr (by decide), Or.inr (by decide)⟩

/-! ### Remainders that begin inside a piece

The dispatcher takes any url with the location path as a prefix.  Here the remainder
begins with a character that is neither a slash nor a question mark, so that the
handler does not remove the location path. -/

def isStop (c : Char) : Bool := c == '/' || c == '?'

/-- The text up to the end of the piece it begins with. -/
def firstPiece (text : Text) : Text := text.takeWhile (fun c => !isStop c)

def Inside (remainder : Text) : Prop :=
  ∃ c rest, remainder = c :: rest ∧ c ≠ '/' ∧ c ≠ '?'

def secondId (segments : List Text) : Option Int := segments[1]?.bind parseId

/-- The operations called are about the entity the remainder names, and the id it
names. -/
def FromRemainder (urlPrefix remainder : Text) : Prop :=
  ∀ (isValidJson : Text → Bool) (request : Request) (call : StoreCall),
    request.url = urlPrefix ++ remainder → Calls isValidJson urlPrefix request call →
    (pieces '/' (cutQuery remainder)).head? = some call.entityName ∧
      ∀ id, call.id? = some id → secondId (pieces '/' (cutQuery remainder)) = some id

/-- A location path that closes the first piece of the remainder itself. -/
def ClosesPiece (urlPrefix remainder : Text) : Prop :=
  ∃ w d more, urlPrefix.dropWhile (· == '/') = w ++ d :: more ∧ isStop d = true ∧
    firstPiece remainder = w

/-- The location path closes its first piece, the remainder begins with the same
piece, and the same id follows in the url as in the remainder, if any follows. -/
structure Repeats (urlPrefix remainder : Text) : Prop where
  piece : ClosesPiece urlPrefix remainder
  id : (pieces '/' (cutQuery (urlPrefix ++ remainder)))[1]? = none ∨
    secondId (pieces '/' (cutQuery (urlPrefix ++ remainder))) =
      secondId (pieces '/' (cutQuery remainder))

theorem isStop_eq_false {c : Char} : isStop c = false ↔ c ≠ '/' ∧ c ≠ '?' := by
  simp [isStop]

theorem inside_iff (text : Text) :
    Inside text ↔ ∃ c rest, text = c :: rest ∧ isStop c = false := by
  simp only [Inside, isStop_eq_false]

theorem firstPiece_ne_nil {text : Text} (inside : Inside text) : firstPiece text ≠ [] := by
  obtain ⟨c, rest, rfl, free⟩ := (inside_iff text).mp inside
  simp [firstPiece, free]

theorem head_pieces {text : Text} (inside : Inside text) :
    (pieces '/' (cutQuery text)).head? = some (firstPiece text) := by
  have nonempty := firstPiece_ne_nil inside
  have first : (cutQuery text).takeWhile (· != '/') = firstPiece text := by
    rw [cutQuery_eq, List.takeWhile_takeWhile, firstPiece]
    congr 1
    funext c
    by_cases slash : c = '/' <;> by_cases mark : c = '?' <;> simp [isStop, slash, mark]
  have free : '/' ∉ firstPiece text := by
    rw [← first]
    intro member
    simpa using List.mem_takeWhile_imp member
  have split := (List.takeWhile_append_dropWhile (p := (· != '/')) (l := cutQuery text)).symm
  rw [first] at split
  rw [split]
  cases rest : (cutQuery text).dropWhile (· != '/') with
  | nil => rw [List.append_nil, pieces_of_free '/' _ free nonempty]; rfl
  | cons c more =>
      have stops := List.head?_dropWhile_not (· != '/') (cutQuery text)
      rw [rest] at stops
      obtain rfl : c = '/' := by simpa using stops
      rw [pieces_append, pieces_of_free '/' _ free nonempty]
      rfl

theorem pieces_dropPrefix (urlPrefix remainder : Text) :
    pieces '/' (cutQuery (urlPrefix ++ remainder)) =
      pieces '/' (cutQuery (urlPrefix.dropWhile (· == '/') ++ remainder)) := by
  induction urlPrefix with
  | nil => rfl
  | cons c urlPrefix ih =>
      by_cases slash : c = '/'
      · have first : cutQuery ('/' :: (urlPrefix ++ remainder)) =
            '/' :: cutQuery (urlPrefix ++ remainder) := by
          simp [cutQuery_eq]
        simp [slash, first, pieces_cons_delimiter, ih]
      · simp [slash]

theorem extractSegments_inside {urlPrefix remainder : Text} (inside : Inside remainder) :
    extractSegments urlPrefix (urlPrefix ++ remainder) =
      pieces '/' (cutQuery (urlPrefix ++ remainder)) := by
  obtain ⟨c, rest, rfl, slash, mark⟩ := inside
  rw [extractSegments_eq, stripUrlPrefix_inside]
  intro other same
  rw [cutQuery_eq] at same
  have plain : ∀ d ∈ urlPrefix, (d != '?') = true := by
    intro d member
    have present : d ∈ (urlPrefix ++ c :: rest).takeWhile (· != '?') := by
      rw [same]
      exact List.mem_append_left _ member
    have kept := List.mem_takeWhile_imp (p := (· != '?')) present
    exact kept
  rw [List.takeWhile_append_of_pos plain] at same
  refine ⟨c, rest.takeWhile (· != '?'), ?_, slash⟩
  rw [← List.append_cancel_left same]
  simp [mark]

theorem pieces_slashes {urlPrefix : Text} (slashes : ∀ c ∈ urlPrefix, c = '/')
    (remainder : Text) :
    pieces '/' (cutQuery (urlPrefix ++ remainder)) = pieces '/' (cutQuery remainder) := by
  have nothing : urlPrefix.dropWhile (· == '/') = [] := by
    rw [List.dropWhile_eq_nil_iff]
    intro c member
    simp [slashes c member]
  rw [pieces_dropPrefix, nothing, List.nil_append]

theorem firstPiece_free (text rest : Text) (free : ∀ c ∈ text, isStop c = false) :
    firstPiece (text ++ rest) = text ++ firstPiece rest := by
  rw [firstPiece, List.takeWhile_append_of_pos fun c member => by simp [free c member]]
  rfl

theorem firstPiece_stop (text rest : Text) {d : Char} (free : ∀ c ∈ text, isStop c = false)
    (stop : isStop d = true) : firstPiece (text ++ d :: rest) = text := by
  rw [firstPiece_free text _ free]
  simp [firstPiece, stop]

theorem isStop_of_mem_firstPiece {text : Text} {c : Char} (member : c ∈ firstPiece text) :
    isStop c = false := by
  simpa using List.mem_takeWhile_imp (p := fun c => !isStop c) member

theorem inside_append {text : Text} (rest : Text) (free : ∀ c ∈ text, isStop c = false)
    (nonempty : text ≠ []) : Inside (text ++ rest) := by
  obtain ⟨c, more, rfl⟩ := List.exists_cons_of_ne_nil nonempty
  exact (inside_iff _).mpr ⟨c, more ++ rest, rfl, free c List.mem_cons_self⟩

theorem head_of_closesPiece {urlPrefix remainder : Text} (inside : Inside remainder)
    (closes : ClosesPiece urlPrefix remainder) :
    (pieces '/' (cutQuery (urlPrefix ++ remainder))).head? =
      some (firstPiece remainder) := by
  obtain ⟨w, d, more, split, stop, rfl⟩ := closes
  have free : ∀ c ∈ firstPiece remainder, isStop c = false := fun c member =>
    isStop_of_mem_firstPiece member
  have begins := inside_append (d :: (more ++ remainder)) free (firstPiece_ne_nil inside)
  rw [pieces_dropPrefix, split, List.append_assoc, List.cons_append, head_pieces begins,
    firstPiece_stop _ _ free stop]

/-- Only so can the first piece of the url be that of the remainder, if the location
path has a piece at all. -/
theorem closesPiece_of_head {urlPrefix remainder : Text}
    (own : ∃ c ∈ urlPrefix, c ≠ '/')
    (same : (pieces '/' (cutQuery (urlPrefix ++ remainder))).head? =
      some (firstPiece remainder)) : ClosesPiece urlPrefix remainder := by
  have nonempty : urlPrefix.dropWhile (· == '/') ≠ [] := by
    rw [Ne, List.dropWhile_eq_nil_iff]
    push Not
    obtain ⟨c, member, differs⟩ := own
    exact ⟨c, member, by simpa using differs⟩
  have first := List.head?_dropWhile_not (· == '/') urlPrefix
  rw [pieces_dropPrefix] at same
  unfold ClosesPiece
  generalize urlPrefix.dropWhile (· == '/') = own' at nonempty first same
  rcases split_at_first isStop own' with free | ⟨before, d, more, rfl, stop, free⟩
  · -- The remainder would go on the piece of the location path.
    rw [head_pieces (inside_append remainder free nonempty), firstPiece_free _ _ free,
      Option.some.injEq] at same
    exact absurd (List.append_left_eq_self.mp same) nonempty
  · refine ⟨before, d, more, rfl, stop, ?_⟩
    cases before with
    | nil =>
        have mark : d = '?' := by
          have notSlash : d ≠ '/' := by simpa using first
          simpa [isStop, notSlash] using stop
        simp [cutQuery_eq, mark] at same
    | cons c before =>
        have whole : c :: before ++ d :: more ++ remainder =
            c :: before ++ d :: (more ++ remainder) := by simp
        rw [whole, head_pieces (inside_append _ free (by simp)), firstPiece_stop _ _ free stop,
          Option.some.injEq] at same
        exact same.symm

theorem target_spec {segments : List Text} {entityName : Text} {id : Option Int}
    (addressed : target segments = some (entityName, id)) :
    segments.head? = some entityName ∧ id = secondId segments ∧
      (segments[1]? = none ∨ id ≠ none) := by
  cases segments with
  | nil => simp [target] at addressed
  | cons name rest =>
      cases valid : isValidEntityName name with
      | false => simp [target, valid] at addressed
      | true =>
          cases rest with
          | nil =>
              rw [target_entity name valid] at addressed
              obtain ⟨rfl, rfl⟩ := Prod.mk.inj (Option.some.inj addressed)
              exact ⟨rfl, rfl, Or.inl rfl⟩
          | cons segment more =>
              cases parsed : parseId segment with
              | none => simp [target, valid, parsed] at addressed
              | some found =>
                  rw [target_object name segment more found valid parsed] at addressed
                  obtain ⟨rfl, rfl⟩ := Prod.mk.inj (Option.some.inj addressed)
                  exact ⟨rfl, by simp [secondId, parsed], Or.inr (by simp)⟩

def getRequest (url : Text) : Request :=
  { Request.fresh with method := "GET".toList, url := url }

/-- Some request of the url reaches its target, so the property is one of the
segments. -/
theorem fromRemainder_iff {urlPrefix remainder : Text} (inside : Inside remainder) :
    FromRemainder urlPrefix remainder ↔
      ∀ entityName id,
        target (pieces '/' (cutQuery (urlPrefix ++ remainder))) = some (entityName, id) →
        (pieces '/' (cutQuery remainder)).head? = some entityName ∧
          ∀ value, id = some value →
            secondId (pieces '/' (cutQuery remainder)) = some value := by
  constructor
  · intro property entityName id addressed
    rw [← extractSegments_inside inside] at addressed
    obtain ⟨call, made, rfl, rfl⟩ := @calls_of_target (fun _ => true) urlPrefix
      (getRequest (urlPrefix ++ remainder)) _ _ rfl addressed
    exact property _ _ call rfl made
  · intro property isValidJson request call url made
    have addressed := target_of_calls made
    rw [url, extractSegments_inside inside] at addressed
    exact property _ _ addressed

/-- Where the remainder begins inside a piece, what the handler addresses comes from
the remainder exactly if the location path is nothing but slashes, if the url has no
target, or if by coincidence the location path closes the piece and the id that the
remainder begins with. -/
theorem entity_from_remainder_iff (urlPrefix remainder : Text) (inside : Inside remainder) :
    FromRemainder urlPrefix remainder ↔
      (∀ c ∈ urlPrefix, c = '/') ∨
        target (pieces '/' (cutQuery (urlPrefix ++ remainder))) = none ∨
        Repeats urlPrefix remainder := by
  rw [fromRemainder_iff inside]
  have wanted := head_pieces inside
  constructor
  · intro property
    by_cases slashes : ∀ c ∈ urlPrefix, c = '/'
    · exact Or.inl slashes
    · push Not at slashes
      cases addressed : target (pieces '/' (cutQuery (urlPrefix ++ remainder))) with
      | none => exact Or.inr (Or.inl rfl)
      | some pair =>
          obtain ⟨entityName, id⟩ := pair
          obtain ⟨head, here, shape⟩ := target_spec addressed
          obtain ⟨sameHead, sameId⟩ := property entityName id addressed
          refine Or.inr (Or.inr ⟨closesPiece_of_head slashes ?_, ?_⟩)
          · rw [head, ← sameHead, wanted]
          · rcases shape with nothing | something
            · exact Or.inl nothing
            · obtain ⟨value, found⟩ := Option.ne_none_iff_exists'.mp something
              exact Or.inr (by rw [← here, found, sameId value found])
  · intro condition entityName id addressed
    obtain ⟨head, here, _⟩ := target_spec addressed
    rcases condition with slashes | nothing | repeats
    · rw [pieces_slashes slashes] at head here
      exact ⟨head, fun value found => by rw [← here, found]⟩
    · rw [nothing] at addressed
      exact absurd addressed (by simp)
    · rw [head_of_closesPiece inside repeats.piece] at head
      refine ⟨wanted.trans head, ?_⟩
      intro value found
      rcases repeats.id with nothing | same
      · simp [here, secondId, nothing] at found
      · rw [← same, ← here, found]

theorem entity_from_remainder_iff_slash :
    FromRemainder "/".toList "Shoes/1".toList ↔
      (∀ c ∈ "/".toList, c = '/') ∨
        target (pieces '/' (cutQuery ("/".toList ++ "Shoes/1".toList))) = none ∨
        Repeats "/".toList "Shoes/1".toList :=
  entity_from_remainder_iff _ _ ⟨'S', "hoes/1".toList, by decide, by decide, by decide⟩

/-- The dispatcher gives `/apiShoes` to the handler at `/api`, which takes it for an
entity of that name. -/
theorem location_path_becomes_entity :
    ¬ ∀ urlPrefix remainder : Text, Inside remainder → FromRemainder urlPrefix remainder := by
  intro stated
  have inside : Inside "Shoes".toList :=
    ⟨'S', "hoes".toList, by decide, by decide, by decide⟩
  have property := (fromRemainder_iff inside).mp (stated "/api".toList "Shoes".toList inside)
  have addressed := (property "apiShoes".toList none (by decide)).1
  exact absurd addressed (by decide)

/-! ## Identifiers -/

/-- Neither the product nor the sum of any turn of the loop in `ParseId` leaves the
range of an `int`. -/
def NoOverflow : Int → Text → Prop
  | _, [] => True
  | result, c :: rest =>
      c.isDigit = true →
        InRange32 (result * 10) ∧
          InRange32 (result * 10 + ((c.toNat : Int) - ('0'.toNat : Int))) ∧
          NoOverflow (result * 10 + ((c.toNat : Int) - ('0'.toNat : Int))) rest

structure ParsesExactly (segment : Text) : Prop where
  exact : ∀ value, parseId segment = some value →
    segment ≠ [] ∧ (∀ c ∈ segment, c.isDigit = true) ∧ value = digitsValue segment
  noOverflow : NoOverflow 0 segment

/-- Requests whose id segments are these do not address one object, if the segments
denote different numbers. -/
def KeepsApart (first second : Text) : Prop :=
  digitsValue first ≠ digitsValue second →
  ∀ (isValidJson : Text → Bool) (urlPrefix : Text) (request other : Request)
    (call otherCall : StoreCall),
    (extractSegments urlPrefix request.url)[1]? = some first →
    (extractSegments urlPrefix other.url)[1]? = some second →
    Calls isValidJson urlPrefix request call → Calls isValidJson urlPrefix other otherCall →
    ¬ (call.entityName = otherCall.entityName ∧ call.id? = otherCall.id?)

def Fits (segment : Text) : Prop := digitsValue (segment.takeWhile Char.isDigit) < 2147483648

theorem le_ofDigitChars (digits : Text) (start : Nat) :
    start ≤ Nat.ofDigitChars 10 digits start := by
  induction digits generalizing start with
  | nil => exact le_rfl
  | cons c rest ih =>
      rw [ofDigitChars_cons]
      have step := ih (start * 10 + (c.toNat - '0'.toNat))
      omega

theorem noOverflow_iff (segment : Text) (start : Nat) (small : start < 2147483648) :
    NoOverflow start segment ↔
      Nat.ofDigitChars 10 (segment.takeWhile Char.isDigit) start < 2147483648 := by
  induction segment generalizing start with
  | nil => simpa [NoOverflow, Nat.ofDigitChars] using small
  | cons c rest ih =>
      cases digit : c.isDigit with
      | false => simpa [NoOverflow, digit, Nat.ofDigitChars] using small
      | true =>
          have value := digit_value digit
          have grows := le_ofDigitChars (rest.takeWhile Char.isDigit)
            (start * 10 + (c.toNat - '0'.toNat))
          simp only [NoOverflow, digit, value, List.takeWhile_cons, if_true, ofDigitChars_cons,
            true_implies]
          generalize c.toNat - '0'.toNat = d at grows
          by_cases next : start * 10 + d < 2147483648
          · have further := ih _ next
            push_cast at further
            rw [further]
            constructor
            · exact fun all => all.2.2
            · intro fits
              exact ⟨⟨by omega, by omega⟩, ⟨by omega, by omega⟩, fits⟩
          · constructor
            · intro all
              have bound := all.2.1.2
              omega
            · intro fits
              omega

theorem takeWhile_digits {segment : Text} (digits : ∀ c ∈ segment, c.isDigit = true) :
    segment.takeWhile Char.isDigit = segment := List.takeWhile_eq_self_iff.mpr digits

theorem parsesExactly_iff (segment : Text) : ParsesExactly segment ↔ Fits segment := by
  have overflow := noOverflow_iff segment 0 (by norm_num)
  rw [Nat.cast_zero] at overflow
  constructor
  · intro exactly
    exact overflow.mp exactly.noOverflow
  · intro fits
    refine ⟨?_, overflow.mpr fits⟩
    intro value parsed
    obtain ⟨nonempty, digits, wrapped⟩ := (parseId_iff segment value).mp parsed
    rw [Fits, takeWhile_digits digits] at fits
    have inRange : InRange32 (digitsValue segment) := by
      constructor
      · omega
      · exact_mod_cast fits
    exact ⟨nonempty, digits, wrapped.trans (wrap32_of_inRange inRange)⟩

theorem parseId_of_calls {isValidJson : Text → Bool} {urlPrefix : Text} {request : Request}
    {call : StoreCall} {segment : Text}
    (second : (extractSegments urlPrefix request.url)[1]? = some segment)
    (made : Calls isValidJson urlPrefix request call) :
    ∃ value, parseId segment = some value ∧ call.id? = some value := by
  obtain ⟨_, id, shape⟩ := target_spec (target_of_calls made)
  have here : secondId (extractSegments urlPrefix request.url) = parseId segment := by
    simp [secondId, second]
  rcases shape with nothing | something
  · rw [nothing] at second
    exact absurd second (by simp)
  · obtain ⟨value, found⟩ := Option.ne_none_iff_exists'.mp something
    exact ⟨value, by rw [← here, ← id, found], found⟩

theorem keepsApart_of_exact {first second : Text} (exactly : ParsesExactly first)
    (otherExactly : ParsesExactly second) : KeepsApart first second := by
  intro differ isValidJson urlPrefix request other call otherCall segment otherSegment made
    otherMade same
  obtain ⟨value, parsed, id⟩ := parseId_of_calls segment made
  obtain ⟨otherValue, otherParsed, otherId⟩ := parseId_of_calls otherSegment otherMade
  have equal : value = otherValue := by
    rw [← Option.some.injEq, ← id, ← otherId, same.2]
  have denotes := (exactly.exact value parsed).2.2
  have otherDenotes := (otherExactly.exact otherValue otherParsed).2.2
  omega

/-- Identifiers are exact, and different numbers address different objects, as long
as the digits fit into an `int`. -/
theorem identifiers_exact_iff (first second : Text) :
    (ParsesExactly first ∧ ParsesExactly second ∧ KeepsApart first second) ↔
      Fits first ∧ Fits second := by
  simp only [parsesExactly_iff]
  constructor
  · intro all
    exact ⟨all.1, all.2.1⟩
  · intro fits
    exact ⟨fits.1, fits.2, keepsApart_of_exact ((parsesExactly_iff first).mpr fits.1)
      ((parsesExactly_iff second).mpr fits.2)⟩

/-- Two to the power of 32 is read as zero, so that its object is that of zero. -/
theorem large_id_aliases :
    ¬ ∀ first second : Text,
      ParsesExactly first ∧ ParsesExactly second ∧ KeepsApart first second := by
  intro stated
  obtain ⟨_, _, apart⟩ := stated "4294967296".toList "0".toList
  have readsLarge : Calls (fun _ => true) [] (getRequest "/Shoes/4294967296".toList)
      (.read "Shoes".toList 0 []) := (calls_iff _ _ _ _).mpr (by decide)
  have readsZero : Calls (fun _ => true) [] (getRequest "/Shoes/0".toList)
      (.read "Shoes".toList 0 []) := (calls_iff _ _ _ _).mpr (by decide)
  exact apart (by decide) _ [] _ _ _ _ (by decide) (by decide) readsLarge readsZero ⟨rfl, rfl⟩

end BathroomRatings.Api
