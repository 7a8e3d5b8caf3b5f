import CallTrace.Json.Reader
import CallTrace.Proofs.Json.Token

/-!
# The reader undoes the writer

A value that is written is scanned as the same value, whatever shape is expected of it,
with two exceptions.  A number that is kept as it was written may be none at all.  And
where a byte string of a certain length is expected, an array must not go on after it,
since what follows is no part of the value that is read.
-/

namespace CallTrace.Json

mutual

/-- Whether a value of the given shape has neither numbers that are kept as they were
written nor arrays that go on after a byte string. -/
def IsPlain : Json → Shape → Prop
  | otherNumber _, _ => False
  | array items, shape => ItemsArePlain items shape
  | object members, shape => MembersArePlain members shape
  | _, _ => True

/-- Whether the items of an array of the given shape are plain, and are no more than the
shape has room for. -/
def ItemsArePlain : List Json → Shape → Prop
  | [], _ => True
  | item :: items, shape =>
      item.IsPlain shape.head ∧ (items ≠ [] → shape.tail.isComplete = false) ∧
        ItemsArePlain items shape.tail

/-- Whether the members of an object of the given shape are plain. -/
def MembersArePlain : List (Option String × Json) → Shape → Prop
  | [], _ => True
  | (name?, value) :: members, shape =>
      value.IsPlain (shape.member name?) ∧ MembersArePlain members shape

end

/-! ## The steps of a scan -/

section

variable {fuel : Nat} {shape : Shape} {item value : Json} {items : List Json}
  {name? : Option String} {members : List (Option String × Json)} {input body rest : List Char}

theorem skipBlanks_cons {first : Char} (hfirst : isBlank first = false) (rest : List Char) :
    skipBlanks (first :: rest) = first :: rest :=
  List.dropWhile_cons_of_neg (by simp [hfirst])

theorem isBlank_of_isDigit {char : Char} (hdigit : char.isDigit) : isBlank char = false := by
  simp only [isBlank, Bool.or_eq_false_iff, beq_eq_false_iff_ne]
  refine ⟨⟨⟨?_, ?_⟩, ?_⟩, ?_⟩
  all_goals
    rintro rfl
    exact absurd hdigit (by decide)

theorem scanValue_string (fuel : Nat) (shape : Shape) (text? : Option String) (rest : List Char) :
    scanValue (fuel + 1) shape (quote? text? ++ rest) = some (string text?, rest) := by
  obtain ⟨body, symbols, hbody, hscan, htext⟩ := scanString_quote? text? rest
  have hquote : skipBlanks ('"' :: body) = '"' :: body := rfl
  simp only [scanValue, hbody, hquote, hscan, htext, Option.bind_eq_bind, Option.bind_some]

theorem scanValue_natural (fuel : Nat) (shape : Shape) (n : Nat) (hrest : Follows rest) :
    scanValue (fuel + 1) shape (Nat.toDigits 10 n ++ rest) = some (natural n, rest) := by
  have hatom := scanAtom_toDigits n hrest
  obtain ⟨first, digits, hdigits, hfirst⟩ := exists_toDigits_eq_cons n
  rw [hdigits, List.cons_append] at hatom ⊢
  rw [scanValue, skipBlanks_cons (isBlank_of_isDigit hfirst)]
  split
  case h_4 => exact hatom
  all_goals
    next hinput =>
    cases hinput
    exact absurd hfirst (by decide)

theorem scanValue_array (hitems : scanItems fuel shape body = some (items, rest))
    (hblank : skipBlanks body = body) (hbracket : body.head? ≠ some ']') :
    scanValue (fuel + 1) shape ('[' :: body) = some (array items, rest) := by
  have hopen : skipBlanks ('[' :: body) = '[' :: body := rfl
  simp only [scanValue, hopen, hblank]
  split
  · exact absurd rfl hbracket
  · simp only [hitems, Option.bind_eq_bind, Option.bind_some]

theorem scanValue_object (hmembers : scanMembers fuel shape ('"' :: body) = some (members, rest)) :
    scanValue (fuel + 1) shape ('{' :: '"' :: body) = some (object members, rest) := by
  have hopen : skipBlanks ('{' :: '"' :: body) = '{' :: '"' :: body := rfl
  have hquote : skipBlanks ('"' :: body) = '"' :: body := rfl
  simp [scanValue, hopen, hquote, hmembers]

theorem scanItems_last (hitem : scanValue fuel shape.head input = some (item, ']' :: rest)) :
    scanItems (fuel + 1) shape input = some ([item], rest) := by
  have hclose : skipBlanks (']' :: rest) = ']' :: rest := rfl
  simp only [scanItems, hitem, hclose, Option.bind_eq_bind, Option.bind_some]

theorem scanItems_cons (hitem : scanValue fuel shape.head input = some (item, ',' :: body))
    (hcomplete : shape.tail.isComplete = false)
    (hitems : scanItems fuel shape.tail body = some (items, rest)) :
    scanItems (fuel + 1) shape input = some (item :: items, rest) := by
  have hcomma : skipBlanks (',' :: body) = ',' :: body := rfl
  simp [scanItems, hitem, hcomma, hcomplete, hitems]

theorem scanMembers_last
    (hvalue : scanValue fuel (shape.member name?) input = some (value, '}' :: rest)) :
    scanMembers (fuel + 1) shape (quote? name? ++ ':' :: input) =
      some ([(name?, value)], rest) := by
  have hclose : skipBlanks ('}' :: rest) = '}' :: rest := rfl
  simp only [scanMembers, scanName_quote?, hvalue, hclose, Option.bind_eq_bind, Option.bind_some]

theorem scanMembers_cons
    (hvalue : scanValue fuel (shape.member name?) input = some (value, ',' :: body))
    (hmembers : scanMembers fuel shape body = some (members, rest)) :
    scanMembers (fuel + 1) shape (quote? name? ++ ':' :: input) =
      some ((name?, value) :: members, rest) := by
  have hcomma : skipBlanks (',' :: body) = ',' :: body := rfl
  simp only [scanMembers, scanName_quote?, hvalue, hcomma, hmembers, Option.bind_eq_bind,
    Option.bind_some]

end

/-! ## Scanning what was written -/

theorem exists_quote?_eq_cons (text? : Option String) : ∃ body, quote? text? = '"' :: body := by
  cases text? with
  | none => exact ⟨_, rfl⟩
  | some text => exact ⟨_, rfl⟩

/-- A value begins neither with a blank nor with a closing bracket. -/
theorem exists_render_eq_cons {json : Json} {shape : Shape} (hplain : json.IsPlain shape) :
    ∃ first body, json.render = first :: body ∧ isBlank first = false ∧ first ≠ ']' := by
  match json with
  | null => exact ⟨_, _, rfl, rfl, by decide⟩
  | bool true => exact ⟨_, _, rfl, rfl, by decide⟩
  | bool false => exact ⟨_, _, rfl, rfl, by decide⟩
  | natural n =>
      obtain ⟨first, digits, hdigits, hfirst⟩ := exists_toDigits_eq_cons n
      refine ⟨first, digits, hdigits, isBlank_of_isDigit hfirst, ?_⟩
      rintro rfl
      exact absurd hfirst (by decide)
  | otherNumber literal => exact absurd hplain id
  | string text? =>
      obtain ⟨body, hbody⟩ := exists_quote?_eq_cons text?
      exact ⟨_, body, hbody, rfl, by decide⟩
  | array [] => exact ⟨_, _, rfl, rfl, by decide⟩
  | array (_ :: _) => exact ⟨_, _, rfl, rfl, by decide⟩
  | object [] => exact ⟨_, _, rfl, rfl, by decide⟩
  | object ((_, _) :: _) => exact ⟨_, _, rfl, rfl, by decide⟩

theorem length_render_pos {json : Json} {shape : Shape} (hplain : json.IsPlain shape) :
    0 < json.render.length := by
  obtain ⟨first, body, hrender, -⟩ := exists_render_eq_cons hplain
  rw [hrender]
  exact Nat.succ_pos _

section

variable (name? : Option String) (value item : Json) (items : List Json)
  (members : List (Option String × Json)) (rest : List Char)

theorem length_renderItems : (renderItems items).length = (renderItems items).tail.length + 1 := by
  cases items <;> simp [renderItems]

theorem length_renderMembers :
    (renderMembers members).length = (renderMembers members).tail.length + 1 := by
  rcases members with _ | ⟨⟨name?, value⟩, members⟩ <;> simp [renderMembers]

theorem tail_renderItems_cons :
    (renderItems (item :: items)).tail = item.render ++ renderItems items :=
  rfl

theorem tail_renderMembers_cons :
    (renderMembers ((name?, value) :: members)).tail =
      quote? name? ++ ':' :: (value.render ++ renderMembers members) := by
  simp [renderMembers]

variable {items members}

theorem renderItems_eq_cons (hne : items ≠ []) :
    renderItems items = ',' :: (renderItems items).tail := by
  cases items with
  | nil => exact absurd rfl hne
  | cons item items => rfl

theorem renderMembers_eq_cons (hne : members ≠ []) :
    renderMembers members = ',' :: (renderMembers members).tail := by
  cases members with
  | nil => exact absurd rfl hne
  | cons member members => rfl

end

theorem follows_renderItems (items : List Json) (rest : List Char) :
    Follows (renderItems items ++ rest) := by
  cases items with
  | nil => exact .bracket rest
  | cons item items => exact .comma _

theorem follows_renderMembers (members : List (Option String × Json)) (rest : List Char) :
    Follows (renderMembers members ++ rest) := by
  cases members with
  | nil => exact .brace rest
  | cons member members => exact .comma _

mutual

-- Each step of a scan costs one unit of fuel, and pays for it with the bracket or the comma
-- that it takes off the input.

/-- A plain value is scanned as it was written. -/
theorem scanValue_render : ∀ (json : Json) {shape : Shape} {fuel : Nat} {rest : List Char},
    json.IsPlain shape → json.render.length ≤ fuel → Follows rest →
      scanValue fuel shape (json.render ++ rest) = some (json, rest)
  | json, shape, 0, rest, hplain, hfuel, _ => by
      have hlength := length_render_pos hplain
      omega
  | null, _, _ + 1, _, _, _, _ => rfl
  | bool true, _, _ + 1, _, _, _, _ => rfl
  | bool false, _, _ + 1, _, _, _, _ => rfl
  | natural n, shape, fuel + 1, _, _, _, hrest => scanValue_natural fuel shape n hrest
  | string text?, shape, fuel + 1, rest, _, _, _ => scanValue_string fuel shape text? rest
  | array [], _, _ + 1, _, _, _, _ => rfl
  | array (item :: items), shape, fuel + 1, rest, hplain, hfuel, _ => by
      have hitems : scanItems fuel shape ((renderItems (item :: items)).tail ++ rest) =
          some (item :: items, rest) :=
        scanItems_render (item :: items) (List.cons_ne_nil _ _) hplain
          (Nat.le_of_succ_le_succ hfuel)
      obtain ⟨first, body, hrender, hblank, hbracket⟩ := exists_render_eq_cons hplain.1
      have hbody : (renderItems (item :: items)).tail ++ rest =
          first :: (body ++ renderItems items ++ rest) := by
        simp [tail_renderItems_cons, hrender]
      rw [hbody] at hitems
      have harray := scanValue_array hitems (skipBlanks_cons hblank _) (by simpa using hbracket)
      rw [← hbody] at harray
      exact harray
  | object [], _, _ + 1, _, _, _, _ => rfl
  | object ((name?, value) :: members), shape, fuel + 1, rest, hplain, hfuel, _ => by
      have hmembers : scanMembers fuel shape ((renderMembers ((name?, value) :: members)).tail ++
          rest) = some ((name?, value) :: members, rest) :=
        scanMembers_render ((name?, value) :: members) (List.cons_ne_nil _ _) hplain
          (Nat.le_of_succ_le_succ hfuel)
      obtain ⟨body, hquote⟩ := exists_quote?_eq_cons name?
      have hbody : (renderMembers ((name?, value) :: members)).tail ++ rest =
          '"' :: (body ++ ':' :: (value.render ++ renderMembers members) ++ rest) := by
        simp [tail_renderMembers_cons, hquote]
      rw [hbody] at hmembers
      have hobject := scanValue_object hmembers
      rw [← hbody] at hobject
      exact hobject

/-- Plain items are scanned as they were written, from behind the bracket or the comma. -/
theorem scanItems_render : ∀ (items : List Json) {shape : Shape} {fuel : Nat} {rest : List Char},
    items ≠ [] → ItemsArePlain items shape → (renderItems items).tail.length ≤ fuel →
      scanItems fuel shape ((renderItems items).tail ++ rest) = some (items, rest)
  | [], _, _, _, hne, _, _ => absurd rfl hne
  | item :: items, shape, 0, rest, _, hplain, hfuel => by
      have hlength := length_render_pos hplain.1
      rw [tail_renderItems_cons, List.length_append] at hfuel
      omega
  | item :: items, shape, fuel + 1, rest, _, hplain, hfuel => by
      obtain ⟨hitem, hcomplete, hitems⟩ := hplain
      have hlength := length_render_pos hitem
      have hlengths := length_renderItems items
      rw [tail_renderItems_cons, List.length_append] at hfuel
      have hscan : scanValue fuel shape.head (item.render ++ (renderItems items ++ rest)) =
          some (item, renderItems items ++ rest) :=
        scanValue_render item hitem (by omega) (follows_renderItems items rest)
      rw [tail_renderItems_cons, List.append_assoc]
      by_cases hlast : items = []
      · subst hlast
        exact scanItems_last hscan
      · have hmore : scanItems fuel shape.tail ((renderItems items).tail ++ rest) =
            some (items, rest) :=
          scanItems_render items hlast hitems (by omega)
        rw [renderItems_eq_cons hlast] at hscan ⊢
        exact scanItems_cons hscan (hcomplete hlast) hmore

/-- Plain members are scanned as they were written, from behind the brace or the comma. -/
theorem scanMembers_render :
    ∀ (members : List (Option String × Json)) {shape : Shape} {fuel : Nat} {rest : List Char},
      members ≠ [] → MembersArePlain members shape → (renderMembers members).tail.length ≤ fuel →
        scanMembers fuel shape ((renderMembers members).tail ++ rest) = some (members, rest)
  | [], _, _, _, hne, _, _ => absurd rfl hne
  | (name?, value) :: members, shape, 0, rest, _, hplain, hfuel => by
      have hlength := length_render_pos hplain.1
      simp only [tail_renderMembers_cons, List.length_append, List.length_cons] at hfuel
      omega
  | (name?, value) :: members, shape, fuel + 1, rest, _, hplain, hfuel => by
      obtain ⟨hvalue, hmembers⟩ := hplain
      have hlengths := length_renderMembers members
      simp only [tail_renderMembers_cons, List.length_append, List.length_cons] at hfuel
      have hscan : scanValue fuel (shape.member name?) (value.render ++
          (renderMembers members ++ rest)) = some (value, renderMembers members ++ rest) :=
        scanValue_render value hvalue (by omega) (follows_renderMembers members rest)
      rw [tail_renderMembers_cons, List.append_assoc, List.cons_append, List.append_assoc]
      by_cases hlast : members = []
      · subst hlast
        exact scanMembers_last hscan
      · have hmore : scanMembers fuel shape ((renderMembers members).tail ++ rest) =
            some (members, rest) :=
          scanMembers_render members hlast hmembers (by omega)
        rw [renderMembers_eq_cons hlast] at hscan ⊢
        exact scanMembers_cons hscan hmore

end

/-- The text of a plain value is read as the value. -/
theorem ofText?_toText {json : Json} {shape : Shape} (hplain : json.IsPlain shape) :
    ofText? shape json.toText = some json := by
  have hscan : scanValue (2 * json.render.length + 2) shape (json.render ++ []) = some (json, []) :=
    scanValue_render json hplain (by omega) .nothing
  rw [List.append_nil] at hscan
  have hrest : skipBlanks [] = [] := rfl
  simp [ofText?, toText, hscan, hrest]

end CallTrace.Json
