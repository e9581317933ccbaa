import ToolShape.Proofs.Json.Extension

/-!
# A value inside another one

A text that holds a value is read as that value where it stands under the only key of an object
(`Json.readFirst_underKey`), unless the value nests so deep that the object leaves no room for it; and
a text that is malformed on its own is so there (`Json.readFirst_underKey_malformed`).

Values, items and fields are read by one recursion, and the longer text may leave less room in it.
`Json.ExtendsWithin` says what is read then: what does not fit is malformed, and all else is as
before. It is kept by each step of the recursion, so it holds of the whole (`Json.extends_all`).
-/

set_option autoImplicit false

namespace ToolShape.Json

variable {α β : Type} {more text after : List Char}

/-! ## Less room -/

/-- As `Extends`, with room in the longer text that what was read may not fit in. -/
def ExtendsWithin (more : List Char) (depth : α → Nat) (room : Nat)
    (short long : Except Fault (α × List Char)) : Prop :=
  short ≠ .error .early → long = short >>= fun p => within (depth p.1) room (p.1, p.2 ++ more)

namespace ExtendsWithin

variable {depth : α → Nat} {room : Nat} {short long : Except Fault (α × List Char)}

theorem early : ExtendsWithin more depth room (.error .early) long := fun h => absurd rfl h

theorem malformed : ExtendsWithin more depth room (.error .malformed) (.error .malformed) :=
  fun _ => rfl

/-- The three ways a text is read and a longer one with it. -/
theorem cases (h : ExtendsWithin more depth room short long) :
    short = .error .early ∨ (short = .error .malformed ∧ long = .error .malformed) ∨
      ∃ a rest, short = .ok (a, rest) ∧ long = within (depth a) room (a, rest ++ more) := by
  rcases short with fault | ⟨a, rest⟩
  · cases fault with
    | early => exact Or.inl rfl
    | malformed => exact Or.inr (Or.inl ⟨rfl, h (by simp)⟩)
  · exact Or.inr (Or.inr ⟨a, rest, rfl, h (by simp)⟩)

/-- What has no depth fits everywhere. -/
theorem of_extends {short long : Except Fault (β × List Char)} (h : Extends more short long)
    {f : β → α} (hf : ∀ b, depth (f b) = 0) :
    ExtendsWithin more depth room (short >>= fun p => .ok (f p.1, p.2))
      (long >>= fun p => .ok (f p.1, p.2)) := by
  obtain rfl | ⟨rfl, rfl⟩ | ⟨b, rest, rfl, rfl⟩ := h.cases
  · exact early
  · exact malformed
  · intro _
    exact (within_of_le (by rw [hf]; exact Nat.zero_le room)).symm

/-- A word has no depth. -/
theorem of_word {room : Nat} {text : List Char} (expected : List Char) {v : Json}
    (hv : v.nesting = 0) :
    ExtendsWithin more nesting room (word expected text >>= fun rest => .ok (v, rest))
      (word expected (text ++ more) >>= fun rest => .ok (v, rest)) := by
  intro hearly
  have hword : word expected text ≠ .error .early := by
    intro h
    rw [h] at hearly
    exact hearly rfl
  rw [word_append expected hword]
  cases word expected text with
  | error fault => rfl
  | ok rest => exact (within_of_le (by rw [hv]; exact Nat.zero_le room)).symm

/-- One reader after another that has no depth. -/
theorem bind_extends {short long : Except Fault (β × List Char)}
    {next further : β × List Char → Except Fault (α × List Char)} (h : Extends more short long)
    (hnext : ∀ b rest,
      ExtendsWithin more depth room (next (b, rest)) (further (b, rest ++ more))) :
    ExtendsWithin more depth room (short >>= next) (long >>= further) := by
  obtain rfl | ⟨rfl, rfl⟩ | ⟨b, rest, rfl, rfl⟩ := h.cases
  · exact early
  · exact malformed
  · exact hnext b rest

/-- One reader after another, when the second one gives something that holds what the first one
gave. -/
theorem bind {outer : β → Nat} {next further : α × List Char → Except Fault (β × List Char)}
    (h : ExtendsWithin more depth room short long)
    (hdepth : ∀ a rest b left, next (a, rest) = .ok (b, left) → depth a ≤ outer b)
    (hnext : ∀ a rest, depth a ≤ room →
      ExtendsWithin more outer room (next (a, rest)) (further (a, rest ++ more))) :
    ExtendsWithin more outer room (short >>= next) (long >>= further) := by
  obtain rfl | ⟨rfl, rfl⟩ | ⟨a, rest, rfl, rfl⟩ := h.cases
  · exact early
  · exact malformed
  by_cases hfits : depth a ≤ room
  · rw [within_of_le hfits]
    exact hnext a rest hfits
  · -- What is too deep already is so inside of anything else.
    rw [within_of_not_le hfits]
    intro hearly
    show Except.error Fault.malformed = next (a, rest) >>= _
    cases hresult : next (a, rest) with
    | error fault =>
      cases fault with
      | early => exact absurd hresult hearly
      | malformed => rfl
    | ok p =>
      have hle := hdepth a rest p.1 p.2 hresult
      exact (within_of_not_le (by omega)).symm

/-- What is put into one more container needs room for one more. -/
theorem enclose (h : ExtendsWithin more depth room short long) {f : α → β} {outer : β → Nat}
    (hf : ∀ a, outer (f a) = depth a + 1) :
    ExtendsWithin more outer (room + 1) (short.map fun p => (f p.1, p.2))
      (long.map fun p => (f p.1, p.2)) := by
  obtain rfl | ⟨rfl, rfl⟩ | ⟨a, rest, rfl, rfl⟩ := h.cases
  · exact early
  · exact malformed
  · intro _
    show (within (depth a) room (a, rest ++ more)).map (fun p => (f p.1, p.2)) =
      within (outer (f a)) (room + 1) (f a, rest ++ more)
    rw [hf, within_succ_succ, map_within]

/-- Without any room, a container is a fault. -/
theorem enclose_zero {f : α → β} {outer : β → Nat} (hf : ∀ a, outer (f a) = depth a + 1) :
    ExtendsWithin more outer 0 (short.map fun p => (f p.1, p.2)) (.error .malformed) := by
  rcases short with fault | ⟨a, rest⟩
  · cases fault with
    | early => exact early
    | malformed => exact malformed
  · intro _
    show _ = within (outer (f a)) 0 (f a, rest ++ more)
    rw [hf]
    rfl

/-- What is put beside something that fits is as deep as the deeper of the two. -/
theorem beside (h : ExtendsWithin more depth room short long) {n : Nat} (hn : n ≤ room) {f : α → β}
    {outer : β → Nat} (hf : ∀ a, outer (f a) = max n (depth a)) :
    ExtendsWithin more outer room (short.map fun p => (f p.1, p.2))
      (long.map fun p => (f p.1, p.2)) := by
  obtain rfl | ⟨rfl, rfl⟩ | ⟨a, rest, rfl, rfl⟩ := h.cases
  · exact early
  · exact malformed
  · intro _
    show (within (depth a) room (a, rest ++ more)).map (fun p => (f p.1, p.2)) =
      within (outer (f a)) room (f a, rest ++ more)
    rw [hf, within_max_of_le hn, map_within]

end ExtendsWithin

/-- With so much fuel, values are read from longer texts as from short ones. -/
def ValuesExtend (after : List Char) (fuel : Nat) : Prop :=
  ∀ (room room' fuel' : Nat) (text : List Char), fuel ≤ fuel' → room' ≤ room →
    ExtendsWithin ('\x7d' :: after) nesting room' (value fuel room text)
      (value fuel' room' (text ++ '\x7d' :: after))

/-- The same for the items of a list, whose depth is that of the deepest. -/
def ItemsExtend (after : List Char) (fuel : Nat) : Prop :=
  ∀ (room room' fuel' : Nat) (text : List Char), fuel ≤ fuel' → room' ≤ room →
    ExtendsWithin ('\x7d' :: after) nestingOfItems room' (elements fuel room text)
      (elements fuel' room' (text ++ '\x7d' :: after))

/-- The same for the fields of an object. -/
def FieldsExtend (after : List Char) (fuel : Nat) : Prop :=
  ∀ (room room' fuel' : Nat) (text : List Char), fuel ≤ fuel' → room' ≤ room →
    ExtendsWithin ('\x7d' :: after) nestingOfFields room' (members fuel room text)
      (members fuel' room' (text ++ '\x7d' :: after))

section

variable {fuel fuel' room room' : Nat} {c : Char} {rest : List Char}

theorem value_brace_of_skipSpace (h : skipSpace text = c :: rest) (hc : c ≠ '\x7d') :
    value (fuel + 1) (room + 1) ('\x7b' :: text) =
      (members fuel room (c :: rest)).map fun p => (.obj p.1, p.2) := by
  rw [value, skipSpace_of_not_isSpace (by decide)]
  simp only [h]
  rfl

/-- After an opening bracket or brace the text must go on. -/
theorem value_of_skipSpace_eq_nil (h : skipSpace text = []) (hc : c = '[' ∨ c = '\x7b') :
    value (fuel + 1) (room + 1) (c :: text) = .error .early := by
  rcases hc with rfl | rfl
  all_goals
    rw [value, skipSpace_of_not_isSpace (by decide)]
    simp only [h]

theorem value_bracket_empty (h : skipSpace text = ']' :: rest) :
    value (fuel + 1) (room + 1) ('[' :: text) = .ok (.arr [], rest) := by
  rw [value, skipSpace_of_not_isSpace (by decide)]
  simp only [h]

theorem value_brace_empty (h : skipSpace text = '\x7d' :: rest) :
    value (fuel + 1) (room + 1) ('\x7b' :: text) = .ok (.obj [], rest) := by
  rw [value, skipSpace_of_not_isSpace (by decide)]
  simp only [h]

/-- A list is read from a longer text as its items are. -/
theorem bracket_extends (hitems : ItemsExtend after fuel) (hfuel : fuel ≤ fuel')
    (hroom : room' ≤ room) (text : List Char) :
    ExtendsWithin ('\x7d' :: after) nesting room' (value (fuel + 1) room ('[' :: text))
      (value (fuel' + 1) room' ('[' :: text ++ '\x7d' :: after)) := by
  cases room with
  | zero =>
    obtain rfl := Nat.le_zero.mp hroom
    exact .malformed
  | succ room =>
    cases hskip : skipSpace text with
    | nil =>
      rw [value_of_skipSpace_eq_nil hskip (Or.inl rfl)]
      exact .early
    | cons c rest =>
      have hmore := skipSpace_append_cons hskip ('\x7d' :: after)
      rw [List.cons_append]
      by_cases hc : c = ']'
      · subst hc
        rw [value_bracket_empty hskip]
        cases room' with
        | zero => exact fun _ => rfl
        | succ room' =>
          rw [value_bracket_empty hmore]
          exact fun _ => rfl
      · rw [value_bracket ⟨c, rest, rfl, hskip, hc⟩]
        cases room' with
        | zero => exact .enclose_zero fun _ => rfl
        | succ room' =>
          rw [value_bracket ⟨c, _, rfl, hmore, hc⟩]
          refine ExtendsWithin.enclose ?_ fun _ => rfl
          exact hitems room room' fuel' (c :: rest) hfuel (Nat.le_of_succ_le_succ hroom)

/-- An object is read from a longer text as its fields are. -/
theorem brace_extends (hfields : FieldsExtend after fuel) (hfuel : fuel ≤ fuel')
    (hroom : room' ≤ room) (text : List Char) :
    ExtendsWithin ('\x7d' :: after) nesting room' (value (fuel + 1) room ('\x7b' :: text))
      (value (fuel' + 1) room' ('\x7b' :: text ++ '\x7d' :: after)) := by
  cases room with
  | zero =>
    obtain rfl := Nat.le_zero.mp hroom
    exact .malformed
  | succ room =>
    cases hskip : skipSpace text with
    | nil =>
      rw [value_of_skipSpace_eq_nil hskip (Or.inr rfl)]
      exact .early
    | cons c rest =>
      have hmore := skipSpace_append_cons hskip ('\x7d' :: after)
      rw [List.cons_append]
      by_cases hc : c = '\x7d'
      · subst hc
        rw [value_brace_empty hskip]
        cases room' with
        | zero => exact fun _ => rfl
        | succ room' =>
          rw [value_brace_empty hmore]
          exact fun _ => rfl
      · rw [value_brace_of_skipSpace hskip hc]
        cases room' with
        | zero => exact .enclose_zero fun _ => rfl
        | succ room' =>
          rw [value_brace_of_skipSpace hmore hc]
          refine ExtendsWithin.enclose ?_ fun _ => rfl
          exact hfields room room' fuel' (c :: rest) hfuel (Nat.le_of_succ_le_succ hroom)

/-- A value that begins with none of the other marks is a number. -/
theorem value_other (hspace : isSpace c = false)
    (hc : c ∉ ['n', 't', 'f', '"', '[', '\x7b', '-']) :
    value (fuel + 1) room (c :: rest) =
      if isDigit c then number false (c :: rest) >>= fun p => .ok (.num p.1, p.2)
      else .error .malformed := by
  simp only [List.mem_cons, List.not_mem_nil, or_false, not_or] at hc
  rw [value, skipSpace_of_not_isSpace hspace]
  split
  · next heq => cases heq
  iterate 7
    · next heq =>
      have hmark := List.head_eq_of_cons_eq heq
      simp only [hc] at hmark
  · next heq =>
    cases heq
    rfl

theorem valuesExtend_succ (hitems : ItemsExtend after fuel) (hfields : FieldsExtend after fuel) :
    ValuesExtend after (fuel + 1) := by
  intro room room' fuel' text hfuel hroom
  obtain ⟨fuel', rfl⟩ : ∃ n, fuel' = n + 1 := ⟨fuel' - 1, by omega⟩
  have hfuel : fuel ≤ fuel' := Nat.le_of_succ_le_succ hfuel
  rw [← value_skipSpace _ _ text, ← value_skipSpace _ _ (text ++ _)]
  cases hskip : skipSpace text with
  | nil => exact .early
  | cons c rest =>
    have hspace := isSpace_of_skipSpace_eq_cons hskip
    rw [skipSpace_append_cons hskip]
    by_cases hc : c ∈ ['n', 't', 'f', '"', '[', '\x7b', '-']
    · simp only [List.mem_cons, List.not_mem_nil, or_false] at hc
      rcases hc with rfl | rfl | rfl | rfl | rfl | rfl | rfl
      · exact .of_word "ull".toList rfl
      · exact .of_word "rue".toList rfl
      · exact .of_word "alse".toList rfl
      · exact .of_extends (stringBody_extends rest) fun _ => rfl
      · exact bracket_extends hitems hfuel hroom rest
      · exact brace_extends hfields hfuel hroom rest
      · exact .of_extends (number_extends true rest) fun _ => rfl
    · rw [value_other hspace hc, value_other hspace hc, ← List.cons_append]
      split
      · exact .of_extends (number_extends false (c :: rest)) fun _ => rfl
      · exact .malformed

theorem elements_nil (fuel room : Nat) : elements fuel room [] = .error .early := by
  cases fuel with
  | zero => rfl
  | succ fuel => cases fuel <;> rfl

theorem members_nil (fuel room : Nat) : members fuel room [] = .error .early := by
  cases fuel <;> rfl

/-- Reads on after an item. -/
def elementsAfter (fuel room : Nat) (v : Json) (text : List Char) :
    Except Fault (List Json × List Char) :=
  match skipSpace text with
  | [] => throw .early
  | ']' :: rest => return ([v], rest)
  | ',' :: rest =>
    match skipSpace rest with
    | ']' :: _ => throw .malformed
    | rest => do
      let (items, rest) ← elements fuel room rest
      return (v :: items, rest)
  | _ => throw .malformed

theorem elements_succ (fuel room : Nat) (text : List Char) :
    elements (fuel + 1) room text =
      value fuel room text >>= fun p => elementsAfter fuel room p.1 p.2 := by
  rw [elements]
  rfl

section

variable {v : Json}

theorem elementsAfter_nil (h : skipSpace text = []) :
    elementsAfter fuel room v text = .error .early := by
  unfold elementsAfter
  rw [h]
  rfl

theorem elementsAfter_end (h : skipSpace text = ']' :: rest) :
    elementsAfter fuel room v text = .ok ([v], rest) := by
  unfold elementsAfter
  rw [h]
  rfl

/-- No list ends with a comma. -/
theorem elementsAfter_comma_end (h : skipSpace text = ',' :: rest) {tail : List Char}
    (hrest : skipSpace rest = ']' :: tail) :
    elementsAfter fuel room v text = .error .malformed := by
  unfold elementsAfter
  simp only [h, hrest]
  rfl

theorem elementsAfter_comma (h : skipSpace text = ',' :: rest)
    (hrest : ∀ d ∈ (skipSpace rest).head?, d ≠ ']') :
    elementsAfter fuel room v text =
      (elements fuel room (skipSpace rest)).map fun p => (v :: p.1, p.2) := by
  unfold elementsAfter
  simp only [h]
  split
  · next heq =>
    rw [heq] at hrest
    exact absurd rfl (hrest ']' rfl)
  · rfl

theorem elementsAfter_other (h : skipSpace text = c :: rest) (hc : c ≠ ']' ∧ c ≠ ',') :
    elementsAfter fuel room v text = .error .malformed := by
  unfold elementsAfter
  rw [h]
  split
  · next heq => cases heq
  · next heq => exact absurd (List.head_eq_of_cons_eq heq) hc.1
  · next heq => exact absurd (List.head_eq_of_cons_eq heq) hc.2
  · rfl

end

theorem le_nestingOfItems_of_elementsAfter {v : Json} {items : List Json} {left : List Char}
    (h : elementsAfter fuel room v text = .ok (items, left)) : v.nesting ≤ nestingOfItems items := by
  unfold elementsAfter at h
  split at h
  · cases h
  · cases h
    exact Nat.le_max_left _ _
  · split at h
    · cases h
    · generalize elements fuel room _ = result at h
      cases result with
      | error fault => cases h
      | ok p =>
        cases h
        exact Nat.le_max_left _ _
  · cases h

theorem elementsAfter_extends (hitems : ItemsExtend after fuel) (hfuel : fuel ≤ fuel')
    (hroom : room' ≤ room) {v : Json} (hv : v.nesting ≤ room') (text : List Char) :
    ExtendsWithin ('\x7d' :: after) nestingOfItems room' (elementsAfter fuel room v text)
      (elementsAfter fuel' room' v (text ++ '\x7d' :: after)) := by
  cases hskip : skipSpace text with
  | nil =>
    rw [elementsAfter_nil hskip]
    exact .early
  | cons c rest =>
    have hmore := skipSpace_append_cons hskip ('\x7d' :: after)
    by_cases hend : c = ']'
    · subst hend
      rw [elementsAfter_end hskip, elementsAfter_end hmore]
      exact fun _ => (within_of_le (Nat.max_le.mpr ⟨hv, Nat.zero_le room'⟩)).symm
    by_cases hcomma : c = ','
    · subst hcomma
      cases hrest : skipSpace rest with
      | nil =>
        rw [elementsAfter_comma hskip (by simp [hrest]), hrest, elements_nil]
        exact .early
      | cons d tail =>
        have hmoreRest := skipSpace_append_cons hrest ('\x7d' :: after)
        by_cases hd : d = ']'
        · subst hd
          rw [elementsAfter_comma_end hskip hrest, elementsAfter_comma_end hmore hmoreRest]
          exact .malformed
        · rw [elementsAfter_comma hskip (by simp [hrest, hd]),
            elementsAfter_comma hmore (by simp [hmoreRest, hd]), hrest, hmoreRest]
          exact (hitems room room' fuel' (d :: tail) hfuel hroom).beside hv fun _ => rfl
    · rw [elementsAfter_other hskip ⟨hend, hcomma⟩, elementsAfter_other hmore ⟨hend, hcomma⟩]
      exact .malformed

theorem itemsExtend_succ (hvalues : ValuesExtend after fuel) (hitems : ItemsExtend after fuel) :
    ItemsExtend after (fuel + 1) := by
  intro room room' fuel' text hfuel hroom
  obtain ⟨fuel', rfl⟩ : ∃ n, fuel' = n + 1 := ⟨fuel' - 1, by omega⟩
  have hfuel : fuel ≤ fuel' := Nat.le_of_succ_le_succ hfuel
  rw [elements_succ, elements_succ]
  refine (hvalues room room' fuel' text hfuel hroom).bind ?_ ?_
  · exact fun v rest items left h => le_nestingOfItems_of_elementsAfter h
  · exact fun v rest hv => elementsAfter_extends hitems hfuel hroom hv rest

/-- Reads on after a field. -/
def membersAfter (fuel room : Nat) (k : String) (v : Json) (text : List Char) :
    Except Fault (Fields × List Char) :=
  match skipSpace text with
  | [] => throw .early
  | '\x7d' :: rest => return ([(k, v)], rest)
  | ',' :: rest => do
    let (fields, rest) ← members fuel room (skipSpace rest)
    return ((k, v) :: fields, rest)
  | _ => throw .malformed

theorem members_succ (fuel room : Nat) (text : List Char) :
    members (fuel + 1) room text =
      key text >>= fun p => value fuel room p.2 >>= fun q => membersAfter fuel room p.1 q.1 q.2 := by
  rw [members]
  rfl

section

variable {k : String} {v : Json}

theorem membersAfter_nil (h : skipSpace text = []) :
    membersAfter fuel room k v text = .error .early := by
  unfold membersAfter
  rw [h]
  rfl

theorem membersAfter_end (h : skipSpace text = '\x7d' :: rest) :
    membersAfter fuel room k v text = .ok ([(k, v)], rest) := by
  unfold membersAfter
  rw [h]
  rfl

theorem membersAfter_comma (h : skipSpace text = ',' :: rest) :
    membersAfter fuel room k v text =
      (members fuel room (skipSpace rest)).map fun p => ((k, v) :: p.1, p.2) := by
  unfold membersAfter
  simp only [h]
  rfl

theorem membersAfter_other (h : skipSpace text = c :: rest) (hc : c ≠ '\x7d' ∧ c ≠ ',') :
    membersAfter fuel room k v text = .error .malformed := by
  unfold membersAfter
  rw [h]
  split
  · next heq => cases heq
  · next heq => exact absurd (List.head_eq_of_cons_eq heq) hc.1
  · next heq => exact absurd (List.head_eq_of_cons_eq heq) hc.2
  · rfl

theorem le_nestingOfFields_of_membersAfter {fields : Fields} {left : List Char}
    (h : membersAfter fuel room k v text = .ok (fields, left)) :
    v.nesting ≤ nestingOfFields fields := by
  unfold membersAfter at h
  split at h
  · cases h
  · cases h
    exact Nat.le_max_left _ _
  · generalize members fuel room _ = result at h
    cases result with
    | error fault => cases h
    | ok p =>
      cases h
      exact Nat.le_max_left _ _
  · cases h

theorem membersAfter_extends (hfields : FieldsExtend after fuel) (hfuel : fuel ≤ fuel')
    (hroom : room' ≤ room) (hv : v.nesting ≤ room') (text : List Char) :
    ExtendsWithin ('\x7d' :: after) nestingOfFields room' (membersAfter fuel room k v text)
      (membersAfter fuel' room' k v (text ++ '\x7d' :: after)) := by
  cases hskip : skipSpace text with
  | nil =>
    rw [membersAfter_nil hskip]
    exact .early
  | cons c rest =>
    have hmore := skipSpace_append_cons hskip ('\x7d' :: after)
    by_cases hend : c = '\x7d'
    · subst hend
      rw [membersAfter_end hskip, membersAfter_end hmore]
      exact fun _ => (within_of_le (Nat.max_le.mpr ⟨hv, Nat.zero_le room'⟩)).symm
    by_cases hcomma : c = ','
    · subst hcomma
      cases hrest : skipSpace rest with
      | nil =>
        rw [membersAfter_comma hskip, hrest, members_nil]
        exact .early
      | cons d tail =>
        rw [membersAfter_comma hskip, membersAfter_comma hmore, hrest,
          skipSpace_append_cons hrest]
        exact (hfields room room' fuel' (d :: tail) hfuel hroom).beside hv fun _ => rfl
    · rw [membersAfter_other hskip ⟨hend, hcomma⟩, membersAfter_other hmore ⟨hend, hcomma⟩]
      exact .malformed

end

theorem fieldsExtend_succ (hvalues : ValuesExtend after fuel) (hfields : FieldsExtend after fuel) :
    FieldsExtend after (fuel + 1) := by
  intro room room' fuel' text hfuel hroom
  obtain ⟨fuel', rfl⟩ : ∃ n, fuel' = n + 1 := ⟨fuel' - 1, by omega⟩
  have hfuel : fuel ≤ fuel' := Nat.le_of_succ_le_succ hfuel
  rw [members_succ, members_succ]
  refine .bind_extends (key_extends text) fun k rest => ?_
  refine (hvalues room room' fuel' rest hfuel hroom).bind ?_ ?_
  · exact fun v rest fields left h => le_nestingOfFields_of_membersAfter h
  · exact fun v rest hv => membersAfter_extends hfields hfuel hroom hv rest

end

/-- **Values, items and fields are read from a longer text as from a short one**, by induction on
the fuel. -/
theorem extends_all (after : List Char) (fuel : Nat) :
    ValuesExtend after fuel ∧ ItemsExtend after fuel ∧ FieldsExtend after fuel := by
  induction fuel with
  | zero =>
    exact ⟨fun _ _ _ _ _ _ => .early, fun _ _ _ _ _ _ => .early, fun _ _ _ _ _ _ => .early⟩
  | succ fuel ih =>
    obtain ⟨hvalues, hitems, hfields⟩ := ih
    exact ⟨valuesExtend_succ hitems hfields, itemsExtend_succ hvalues hitems,
      fieldsExtend_succ hvalues hfields⟩

/-! ## Under a key -/

/-- An object with one field, whose value is the given text. -/
def underKey (k text : String) : String := "\x7b" ++ quote k ++ ": " ++ text ++ "\x7d"

theorem toList_underKey (k text : String) :
    (underKey k text).toList =
      '\x7b' :: ((quote k).toList ++ ':' :: ' ' :: (text.toList ++ ['\x7d'])) := by
  simp [underKey]

/-- The reader comes to the value of the only field with one container less to open. -/
theorem readFirst_underKey_eq (k text : String) :
    ∃ fuel, 2 * text.toList.length + 2 ≤ fuel ∧
      readFirst (underKey k text) =
        (value fuel (greatestNesting - 1) (text.toList ++ ['\x7d']) >>= fun p =>
          membersAfter fuel (greatestNesting - 1) k p.1 p.2).map fun p => (.obj p.1, p.2) := by
  have hlength := congrArg List.length (toList_underKey k text)
  rw [List.length_cons, List.length_append, List.length_cons, List.length_cons,
    List.length_append] at hlength
  obtain ⟨fuel, hfuel⟩ : ∃ n, 2 * (underKey k text).toList.length + 2 = n + 2 :=
    ⟨2 * (underKey k text).toList.length, rfl⟩
  refine ⟨fuel, by omega, ?_⟩
  have hopen : skipSpace ((quote k).toList ++ ':' :: ' ' :: (text.toList ++ ['\x7d'])) =
      (quote k).toList ++ ':' :: ' ' :: (text.toList ++ ['\x7d']) := skipSpace_quote k _
  unfold readFirst
  dsimp only
  rw [hfuel, toList_underKey, greatestNesting, value_brace hopen, members_succ, key_quote]
  dsimp only [bind, Except.bind]
  rw [value_space]

theorem skipSpace_of_atEnd {rest : List Char} (h : atEnd rest = true) {c : Char}
    (hc : isSpace c = false) : skipSpace (rest ++ [c]) = [c] := by
  have hnil : rest.dropWhile isSpace = [] := List.isEmpty_iff.mp h
  unfold skipSpace
  rw [List.dropWhile_append, hnil]
  exact skipSpace_of_not_isSpace hc []

/-- **A text is read under a key as on its own**, if its value does not nest too deep. -/
theorem readFirst_underKey (k : String) {text : String} {v : Json} {rest : List Char}
    (h : readFirst text = .ok (v, rest)) (hend : atEnd rest = true)
    (hnesting : v.nesting < greatestNesting) :
    readFirst (underKey k text) = .ok (.obj [(k, v)], []) := by
  obtain ⟨fuel, hfuel, hread⟩ := readFirst_underKey_eq k text
  have hvalue := (extends_all [] (2 * text.toList.length + 2)).1 greatestNesting
    (greatestNesting - 1) fuel text.toList hfuel (Nat.sub_le _ _)
  unfold readFirst at h
  dsimp only at h
  rw [h] at hvalue
  have hlong : value fuel (greatestNesting - 1) (text.toList ++ ['\x7d']) =
      within v.nesting (greatestNesting - 1) (v, rest ++ ['\x7d']) := hvalue (by simp)
  rw [within_of_le (Nat.le_sub_one_of_lt hnesting)] at hlong
  rw [hread, hlong]
  dsimp only [bind, Except.bind]
  rw [membersAfter_end (skipSpace_of_atEnd hend (by decide))]
  rfl

/-- **What is malformed on its own is so under a key.** -/
theorem readFirst_underKey_malformed (k : String) {text : String}
    (h : readFirst text = .error .malformed) :
    readFirst (underKey k text) = .error .malformed := by
  obtain ⟨fuel, hfuel, hread⟩ := readFirst_underKey_eq k text
  have hvalue := (extends_all [] (2 * text.toList.length + 2)).1 greatestNesting
    (greatestNesting - 1) fuel text.toList hfuel (Nat.sub_le _ _)
  unfold readFirst at h
  dsimp only at h
  rw [h] at hvalue
  have hlong : value fuel (greatestNesting - 1) (text.toList ++ ['\x7d']) = .error .malformed :=
    hvalue (by simp)
  rw [hread, hlong]
  rfl

end ToolShape.Json
