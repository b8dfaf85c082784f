import SchemaRename.Json.Reader
import SchemaRename.Json.Writer

/-!
# What Is Written Is Read

A value comes back from its text, whatever the layout.

The two layouts put blanks at the same points: in front of every item and
member, in front of the closing bracket, and behind a colon. They differ in
how many, and the reader does not care. So both are taken for one writer here,
which is told what the blanks are, and what holds of it holds of each.

Where a token ends depends on nothing behind it, as long as no number is
written. A number ends where something else begins, and its characters are
kept as they are, proper or not. Values without numbers are all that a rename
map needs.

The fuel of the reader is a bound on its steps, and every step takes a
character. So the length of the text is enough, for the whole as for each
part.

## Main definitions

* `Json.partOf`: What a written character is read as.
* `Json.Layout`: Blanks for each point at which a layout may put some.
* `Json.Layout.write`: A value in a layout.
* `Json.IsLettered`: Values without numbers, whose strings stand for texts.

## Theorems

* `readParts_escapeChar`: A written character is read as one part.
* `readString_write`: A written string is read as its text.
* `readValue_write`: A written value is read as itself.
* `write_compactLayout`, `write_indentedLayout`: The two layouts.
* `parse_compact`, `parse_indented`: What is written is read.
-/

namespace SchemaRename.Json

/-- What a written character is read as: the control characters without an
    escape of their own are read as units. -/
def partOf (c : Char) : Part :=
  if c.toNat < 0x20 ∧ c ∉ ['\n', '\r', '\t', '\x08', '\x0c'] then .unit c.toNat else .char c

theorem unitOfHex?_control (n : Nat) (h : n < 0x20) :
    unitOfHex? '0' '0' (Text.hexDigit (n / 16)) (Text.hexDigit (n % 16)) = some n := by
  have hzero : Text.hexDigit? '0' = some 0 := by decide
  rw [unitOfHex?, hzero, Text.hexDigit?_hexDigit _ (by omega),
    Text.hexDigit?_hexDigit _ (by omega)]
  simp only [bind, Option.bind, pure]
  congr 1
  omega

section String

variable (rest : List Char) (parts : List Part) (tail : List Char)
  (h : readParts rest = .ok (parts, tail))
include h

theorem readParts_short (e c : Char) (he : e ≠ 'u') (hc : shortEscape? e = some c) :
    readParts ('\\' :: e :: rest) = .ok (.char c :: parts, tail) := by
  rw [readParts.eq_4 _ _ fun _ _ _ _ _ heq _ => he heq, hc]
  simp only [h, bind, Except.bind, pure, Except.pure]

theorem readParts_plain (c : Char) (hquote : c ≠ '"') (hslash : c ≠ '\\')
    (hcontrol : 0x20 ≤ c.toNat) : readParts (c :: rest) = .ok (.char c :: parts, tail) := by
  rw [readParts.eq_5 _ _ hquote (fun _ _ _ _ _ heq _ => hslash heq)
    (fun _ _ heq _ => hslash heq), if_neg (by simpa using hslash), if_neg (by omega)]
  simp only [h, bind, Except.bind, pure, Except.pure]

theorem readParts_control (c : Char) (hcontrol : c.toNat < 0x20) :
    readParts ('\\' :: 'u' :: '0' :: '0' :: Text.hexDigit (c.toNat / 16) ::
      Text.hexDigit (c.toNat % 16) :: rest) = .ok (.unit c.toNat :: parts, tail) := by
  rw [readParts, unitOfHex?_control c.toNat hcontrol]
  simp only [h, bind, Except.bind, pure, Except.pure]

/-- A written character is read as one part. -/
theorem readParts_escapeChar (c : Char) :
    readParts (escapeChar c ++ rest) = .ok (partOf c :: parts, tail) := by
  have hshort := readParts_short rest parts tail h
  by_cases hspecial : c ∈ ['"', '\\', '\n', '\r', '\t', '\x08', '\x0c']
  · -- Each of these has an escape of its own.
    simp only [List.mem_cons, List.not_mem_nil, or_false] at hspecial
    rcases hspecial with rfl | rfl | rfl | rfl | rfl | rfl | rfl
    all_goals exact hshort _ _ (by decide) rfl
  · simp only [List.mem_cons, List.not_mem_nil, or_false, not_or] at hspecial
    obtain ⟨hquote, hslash, hn, hr, ht, hb, hf⟩ := hspecial
    have hescape : escapeChar c = if c.toNat < 0x20 then
        ['\\', 'u', '0', '0', Text.hexDigit (c.toNat / 16), Text.hexDigit (c.toNat % 16)]
        else [c] := by
      simp [escapeChar, hquote, hslash, hn, hr, ht, hb, hf]
    rw [hescape]
    by_cases hcontrol : c.toNat < 0x20
    · rw [if_pos hcontrol, partOf, if_pos (by simp [hcontrol, hn, hr, ht, hb, hf])]
      exact readParts_control rest parts tail h c hcontrol
    · rw [if_neg hcontrol, partOf, if_neg fun hboth => hcontrol hboth.1]
      exact readParts_plain rest parts tail h c hquote hslash (by omega)

end String

theorem readParts_flatMap (s rest : List Char) :
    readParts (s.flatMap escapeChar ++ '"' :: rest) = .ok (s.map partOf, rest) := by
  induction s with
  | nil => rw [List.flatMap_nil, List.nil_append, readParts, List.map_nil]
  | cons c s ih =>
      rw [List.flatMap_cons, List.append_assoc, List.map_cons]
      exact readParts_escapeChar _ _ _ ih c

/-- A unit that is no half of a pair stands for its character, whatever comes
    behind it. -/
theorem joinParts_unit (n : Nat) (rest : List Part) (h : n < 0xD800) :
    joinParts (.unit n :: rest) = (joinParts rest).map (Char.ofNat n :: ·) := by
  have hhigh : isHighHalf n = false := by simp [isHighHalf]; omega
  have hlow : isLowHalf n = false := by simp [isLowHalf]; omega
  cases rest with
  | nil => simp [joinParts, hhigh, hlow]
  | cons part rest =>
      cases part with
      | char c => simp [joinParts, hhigh, hlow]
      | unit low => simp [joinParts, hhigh, hlow]

theorem joinParts_map_partOf (s : List Char) : joinParts (s.map partOf) = some s := by
  induction s with
  | nil => rfl
  | cons c s ih =>
      rw [List.map_cons, partOf]
      split
      · next hcontrol =>
          rw [joinParts_unit c.toNat _ (by omega), ih, Char.ofNat_toNat]
          rfl
      · rw [joinParts, ih]
        rfl

/-- A written string is read as its text. -/
theorem readString_write (s : String) (rest : List Char) :
    readString (s.toList.flatMap escapeChar ++ '"' :: rest) = .ok (some s, rest) := by
  simp only [readString, readParts_flatMap, joinParts_map_partOf, bind, Except.bind, pure,
    Except.pure, Option.map_some, String.ofList_toList]

/-- Blanks for each point at which a layout may put some: in front of what
    stands at a depth, and behind a colon. -/
structure Layout where
  gap : Nat → List Char
  space : List Char
  isGap_gap : ∀ depth, ∀ c ∈ gap depth, isGap c = true
  isGap_space : ∀ c ∈ space, isGap c = true

namespace Layout

mutual

/-- A value in a layout, at a depth. -/
def write (l : Layout) (depth : Nat) : Json → List Char
  | .null => "null".toList
  | .bool b => (if b then "true" else "false").toList
  | .number literal => literal.toList
  | .string text => writeText text
  | .array [] => ['[', ']']
  | .array (item :: items) =>
    '[' :: l.gap (depth + 1) ++ l.write (depth + 1) item ++ l.writeItems depth items
  | .object [] => ['\x7b', '\x7d']
  | .object ((key, value) :: members) =>
    '\x7b' :: l.gap (depth + 1) ++ writeText key ++ ':' :: l.space ++
      l.write (depth + 1) value ++ l.writeMembers depth members

/-- The items behind the first one, and the closing bracket. -/
def writeItems (l : Layout) (depth : Nat) : List Json → List Char
  | [] => l.gap depth ++ [']']
  | item :: items =>
    ',' :: l.gap (depth + 1) ++ l.write (depth + 1) item ++ l.writeItems depth items

/-- The members behind the first one, and the closing brace. -/
def writeMembers (l : Layout) (depth : Nat) : List (Option String × Json) → List Char
  | [] => l.gap depth ++ ['\x7d']
  | (key, value) :: members =>
    ',' :: l.gap (depth + 1) ++ writeText key ++ ':' :: l.space ++
      l.write (depth + 1) value ++ l.writeMembers depth members

end

end Layout

/-- Values without numbers, whose strings stand for texts. -/
inductive IsLettered : Json → Prop where
  | null : IsLettered .null
  | bool (b : Bool) : IsLettered (.bool b)
  | str (s : String) : IsLettered (.str s)
  | array (items : List Json) (h : ∀ v ∈ items, IsLettered v) : IsLettered (.array items)
  | object (members : List (Option String × Json)) (hkeys : ∀ m ∈ members, m.1.isSome)
      (h : ∀ m ∈ members, IsLettered m.2) : IsLettered (.object members)

theorem skipGap_append (gap s : List Char) (h : ∀ c ∈ gap, isGap c = true) :
    skipGap (gap ++ s) = skipGap s := by
  induction gap with
  | nil => rfl
  | cons c gap ih =>
      rw [List.cons_append, skipGap, List.dropWhile_cons_of_pos (h c List.mem_cons_self)]
      exact ih fun d hd => h d (List.mem_cons_of_mem c hd)

theorem skipGap_cons (c : Char) (s : List Char) (h : isGap c = false) :
    skipGap (c :: s) = c :: s := by
  rw [skipGap, List.dropWhile_cons_of_neg (by simp [h])]

/-- Blanks in front of a value are passed over. -/
theorem readValue_gap (fuel : Nat) (gap s : List Char) (h : ∀ c ∈ gap, isGap c = true) :
    readValue fuel (gap ++ s) = readValue fuel s := by
  cases fuel with
  | zero => rw [readValue, readValue]
  | succ fuel => rw [readValue, readValue, skipGap_append gap s h]

theorem readMember_gap (fuel : Nat) (gap s : List Char) (h : ∀ c ∈ gap, isGap c = true) :
    readMember fuel (gap ++ s) = readMember fuel s := by
  cases fuel with
  | zero => rw [readMember, readMember]
  | succ fuel => rw [readMember, readMember, skipGap_append gap s h]

/-- A written value starts with a token of its own. -/
theorem head_write (l : Layout) (depth : Nat) (v : Json) (h : IsLettered v) :
    ∃ c s, l.write depth v = c :: s ∧ isGap c = false ∧ c ≠ ']' ∧ c ≠ '\x7d' := by
  cases h with
  | null => exact ⟨_, _, rfl, by decide⟩
  | bool b => cases b <;> exact ⟨_, _, rfl, by decide⟩
  | str s => exact ⟨_, _, rfl, by decide⟩
  | array items h =>
      cases items with
      | nil => exact ⟨'[', _, Layout.write.eq_5 l depth, by decide⟩
      | cons item items => exact ⟨'[', _, Layout.write.eq_6 l depth item items, by decide⟩
  | object members hkeys h =>
      cases members with
      | nil => exact ⟨'\x7b', _, Layout.write.eq_7 l depth, by decide⟩
      | cons member members => exact ⟨'\x7b', _, Layout.write.eq_8 l depth _ _ members, by decide⟩

theorem writeText_some (s : String) (rest : List Char) :
    writeText (some s) ++ rest = '"' :: (s.toList.flatMap escapeChar ++ '"' :: rest) := by
  change writeString s.toList ++ rest = _
  rw [writeString, List.cons_append, List.cons_append, List.append_assoc]
  rfl

theorem length_writeText (s : String) : 2 ≤ (writeText (some s)).length := by
  have h := congrArg List.length (writeText_some s [])
  simp only [List.append_nil, List.length_cons, List.length_append, List.length_nil] at h
  omega

/-- A member is read as itself if its value is. -/
theorem readMember_write (l : Layout) (depth : Nat) (key : String) (value : Json) (fuel : Nat)
    (rest : List Char) (hvalue : readValue fuel (l.write depth value ++ rest) = .ok (value, rest)) :
    readMember (fuel + 1) (writeText (some key) ++ ':' :: l.space ++ l.write depth value ++ rest) =
      .ok ((some key, value), rest) := by
  rw [List.append_assoc, List.append_assoc, List.cons_append, writeText_some, readMember,
    skipGap_cons '"' _ (by decide)]
  simp only [readString_write, bind, Except.bind]
  rw [skipGap_cons ':' _ (by decide)]
  simp only [readValue_gap _ _ _ l.isGap_space, hvalue, pure, Except.pure]

/-- An array with something in it is read item by item. -/
theorem readValue_array (fuel : Nat) (s t : List Char) (c : Char) (hs : skipGap s = c :: t)
    (hc : c ≠ ']') (item : Json) (items : List Json) (more rest : List Char)
    (hitem : readValue fuel (c :: t) = .ok (item, more))
    (hitems : readItems fuel more = .ok (items, rest)) :
    readValue (fuel + 1) ('[' :: s) = .ok (.array (item :: items), rest) := by
  rw [readValue, skipGap_cons '[' _ (by decide)]
  simp only [hs]
  split
  · next heq => exact absurd (List.cons.inj heq).1 hc
  · simp only [hitem, hitems, bind, Except.bind, pure, Except.pure]

/-- An object with something in it is read member by member. -/
theorem readValue_object (fuel : Nat) (s t : List Char) (c : Char) (hs : skipGap s = c :: t)
    (hc : c ≠ '\x7d') (member : Option String × Json) (members : List (Option String × Json))
    (more rest : List Char) (hmember : readMember fuel (c :: t) = .ok (member, more))
    (hmembers : readMembers fuel more = .ok (members, rest)) :
    readValue (fuel + 1) ('\x7b' :: s) = .ok (.object (member :: members), rest) := by
  rw [readValue, skipGap_cons '\x7b' _ (by decide)]
  simp only [hs]
  split
  · next heq => exact absurd (List.cons.inj heq).1 hc
  · simp only [hmember, hmembers, bind, Except.bind, pure, Except.pure]

mutual

/-- A written value is read as itself. -/
theorem readValue_write (l : Layout) (depth : Nat) (v : Json) (hv : IsLettered v) (fuel : Nat)
    (hfuel : (l.write depth v).length ≤ fuel) (rest : List Char) :
    readValue fuel (l.write depth v ++ rest) = .ok (v, rest) := by
  obtain ⟨c, s, hhead, -⟩ := head_write l depth v hv
  -- There is a first character, and so there is fuel for it.
  obtain ⟨fuel, rfl⟩ : ∃ n, fuel = n + 1 := by
    rw [hhead, List.length_cons] at hfuel
    exact ⟨fuel - 1, by omega⟩
  match v, hv with
  | .null, _ => rw [Layout.write, readValue]; rfl
  | .bool b, _ => cases b <;> rw [Layout.write, readValue] <;> rfl
  | .string _, .str text =>
      rw [Layout.write, writeText_some, readValue, skipGap_cons '"' _ (by decide)]
      simp only [readString_write, bind, Except.bind, pure, Except.pure]
  | .array [], _ => rw [Layout.write, readValue]; rfl
  | .array (item :: items), .array _ h =>
      -- The first item does not start like the end of the array, so the array is
      -- not taken for an empty one.
      obtain ⟨c, t, ht, hgap, hclosing, -⟩ :=
        head_write l (depth + 1) item (h item List.mem_cons_self)
      rw [Layout.write] at hfuel ⊢
      simp only [List.length_append, List.length_cons] at hfuel
      have hitem := readValue_write l (depth + 1) item (h item List.mem_cons_self) fuel
        (by omega) (l.writeItems depth items ++ rest)
      have hitems := readItems_write l depth items
        (fun v hv => h v (List.mem_cons_of_mem item hv)) fuel (by omega) rest
      rw [ht] at hitem ⊢
      simp only [List.cons_append, List.append_assoc] at hitem ⊢
      refine readValue_array fuel _ _ c ?_ hclosing item items _ rest hitem hitems
      rw [skipGap_append _ _ (l.isGap_gap (depth + 1)), skipGap_cons c _ hgap]
  | .object [], _ => rw [Layout.write, readValue]; rfl
  | .object ((key, value) :: members), .object _ hkeys h =>
      obtain ⟨text, rfl⟩ := Option.isSome_iff_exists.mp (hkeys (key, value) List.mem_cons_self)
      -- A member takes one step more than its value. The quotes of its key are
      -- long enough to pay for that.
      have hlength := length_writeText text
      rw [Layout.write] at hfuel ⊢
      simp only [List.length_append, List.length_cons] at hfuel
      obtain ⟨fuel, rfl⟩ : ∃ n, fuel = n + 1 := ⟨fuel - 1, by omega⟩
      have hvalue := readValue_write l (depth + 1) value (h (some text, value) List.mem_cons_self)
        fuel (by omega) (l.writeMembers depth members ++ rest)
      have hmembers := readMembers_write l depth members
        (fun m hm => hkeys m (List.mem_cons_of_mem _ hm))
        (fun m hm => h m (List.mem_cons_of_mem _ hm)) (fuel + 1) (by omega) rest
      have hmember := readMember_write l (depth + 1) text value fuel _ hvalue
      simp only [List.cons_append, List.append_assoc, writeText_some] at hmember ⊢
      refine readValue_object (fuel + 1) _ _ '"' ?_ (by decide) _ members _ rest hmember hmembers
      rw [skipGap_append _ _ (l.isGap_gap (depth + 1)), skipGap_cons '"' _ (by decide)]

/-- The written items behind the first one are read as themselves. -/
theorem readItems_write (l : Layout) (depth : Nat) (items : List Json)
    (h : ∀ v ∈ items, IsLettered v) (fuel : Nat)
    (hfuel : (l.writeItems depth items).length ≤ fuel) (rest : List Char) :
    readItems fuel (l.writeItems depth items ++ rest) = .ok (items, rest) := by
  match items with
  | [] =>
      rw [Layout.writeItems] at hfuel ⊢
      simp only [List.length_append, List.length_singleton] at hfuel
      obtain ⟨fuel, rfl⟩ : ∃ n, fuel = n + 1 := ⟨fuel - 1, by omega⟩
      rw [readItems, List.append_assoc, skipGap_append _ _ (l.isGap_gap depth)]
      rfl
  | item :: items =>
      rw [Layout.writeItems] at hfuel ⊢
      simp only [List.length_append, List.length_cons] at hfuel
      obtain ⟨fuel, rfl⟩ : ∃ n, fuel = n + 1 := ⟨fuel - 1, by omega⟩
      have hitem := readValue_write l (depth + 1) item (h item List.mem_cons_self) fuel
        (by omega) (l.writeItems depth items ++ rest)
      have hitems := readItems_write l depth items
        (fun v hv => h v (List.mem_cons_of_mem item hv)) fuel (by omega) rest
      rw [← readValue_gap fuel (l.gap (depth + 1)) _ (l.isGap_gap (depth + 1))] at hitem
      simp only [List.cons_append, List.append_assoc] at hitem ⊢
      rw [readItems, skipGap_cons ',' _ (by decide)]
      simp only [hitem, hitems, bind, Except.bind, pure, Except.pure]

/-- The written members behind the first one are read as themselves. -/
theorem readMembers_write (l : Layout) (depth : Nat) (members : List (Option String × Json))
    (hkeys : ∀ m ∈ members, m.1.isSome) (h : ∀ m ∈ members, IsLettered m.2) (fuel : Nat)
    (hfuel : (l.writeMembers depth members).length ≤ fuel) (rest : List Char) :
    readMembers fuel (l.writeMembers depth members ++ rest) = .ok (members, rest) := by
  match members with
  | [] =>
      rw [Layout.writeMembers] at hfuel ⊢
      simp only [List.length_append, List.length_singleton] at hfuel
      obtain ⟨fuel, rfl⟩ : ∃ n, fuel = n + 1 := ⟨fuel - 1, by omega⟩
      rw [readMembers, List.append_assoc, skipGap_append _ _ (l.isGap_gap depth)]
      rfl
  | (key, value) :: members =>
      obtain ⟨text, rfl⟩ := Option.isSome_iff_exists.mp (hkeys (key, value) List.mem_cons_self)
      have hlength := length_writeText text
      rw [Layout.writeMembers] at hfuel ⊢
      simp only [List.length_append, List.length_cons] at hfuel
      obtain ⟨fuel, rfl⟩ : ∃ n, fuel = n + 2 := ⟨fuel - 2, by omega⟩
      have hvalue := readValue_write l (depth + 1) value (h (some text, value) List.mem_cons_self)
        fuel (by omega) (l.writeMembers depth members ++ rest)
      have hmembers := readMembers_write l depth members
        (fun m hm => hkeys m (List.mem_cons_of_mem _ hm))
        (fun m hm => h m (List.mem_cons_of_mem _ hm)) (fuel + 1) (by omega) rest
      have hmember := readMember_write l (depth + 1) text value fuel _ hvalue
      rw [← readMember_gap (fuel + 1) (l.gap (depth + 1)) _ (l.isGap_gap (depth + 1))] at hmember
      simp only [List.cons_append, List.append_assoc] at hmember ⊢
      rw [readMembers, skipGap_cons ',' _ (by decide)]
      simp only [hmember, hmembers, bind, Except.bind, pure, Except.pure]

end

/-- The layout that puts nothing between the tokens. -/
def compactLayout : Layout where
  gap _ := []
  space := []
  isGap_gap := by simp
  isGap_space := by simp

/-- The layout that gives every item and every member a line of its own. -/
def indentedLayout : Layout where
  gap := newline
  space := [' ']
  isGap_gap depth c hc := by
    rcases List.mem_cons.mp hc with rfl | hc
    · decide
    · rw [List.eq_of_mem_replicate hc]
      decide
  isGap_space c hc := by
    rw [List.mem_singleton.mp hc]
    decide

mutual

theorem write_compactLayout (depth : Nat) (v : Json) :
    compactLayout.write depth v = writeCompact v := by
  match v with
  | .null | .bool _ | .number _ | .string _ | .array [] | .object [] =>
      rw [Layout.write, writeCompact]
  | .array (item :: items) =>
      rw [Layout.write, writeCompact, write_compactLayout, writeItems_compactLayout]
      rfl
  | .object ((key, value) :: members) =>
      rw [Layout.write, writeCompact, write_compactLayout, writeMembers_compactLayout]
      simp [compactLayout]

theorem writeItems_compactLayout (depth : Nat) (items : List Json) :
    compactLayout.writeItems depth items = writeCompactItems items := by
  match items with
  | [] => rfl
  | item :: items =>
      rw [Layout.writeItems, writeCompactItems, write_compactLayout, writeItems_compactLayout]
      rfl

theorem writeMembers_compactLayout (depth : Nat) (members : List (Option String × Json)) :
    compactLayout.writeMembers depth members = writeCompactMembers members := by
  match members with
  | [] => rfl
  | (key, value) :: members =>
      rw [Layout.writeMembers, writeCompactMembers, write_compactLayout,
        writeMembers_compactLayout]
      simp [compactLayout]

end

mutual

theorem write_indentedLayout (depth : Nat) (v : Json) :
    indentedLayout.write depth v = writeIndented depth v := by
  match v with
  | .null | .bool _ | .number _ | .string _ | .array [] | .object [] =>
      rw [Layout.write, writeIndented]
  | .array (item :: items) =>
      rw [Layout.write, writeIndented, write_indentedLayout, writeItems_indentedLayout]
      rfl
  | .object ((key, value) :: members) =>
      rw [Layout.write, writeIndented, write_indentedLayout, writeMembers_indentedLayout]
      rfl

theorem writeItems_indentedLayout (depth : Nat) (items : List Json) :
    indentedLayout.writeItems depth items = writeIndentedItems depth items := by
  match items with
  | [] => rfl
  | item :: items =>
      rw [Layout.writeItems, writeIndentedItems, write_indentedLayout, writeItems_indentedLayout]
      rfl

theorem writeMembers_indentedLayout (depth : Nat) (members : List (Option String × Json)) :
    indentedLayout.writeMembers depth members = writeIndentedMembers depth members := by
  match members with
  | [] => rfl
  | (key, value) :: members =>
      rw [Layout.writeMembers, writeIndentedMembers, write_indentedLayout,
        writeMembers_indentedLayout]
      rfl

end

/-- A value comes back from its text in any layout. -/
theorem parse_write (l : Layout) (v : Json) (hv : IsLettered v) :
    parse (String.ofList (l.write 0 v)) = .ok v := by
  have hread := readValue_write l 0 v hv (2 * (l.write 0 v).length + 2) (by omega) []
  rw [List.append_nil] at hread
  simp only [parse, String.toList_ofList, hread, bind, Except.bind]
  rfl

theorem parse_compact (v : Json) (hv : IsLettered v) : parse v.compact = .ok v := by
  rw [compact, ← write_compactLayout 0]
  exact parse_write compactLayout v hv

theorem parse_indented (v : Json) (hv : IsLettered v) : parse v.indented = .ok v := by
  rw [indented, ← write_indentedLayout]
  exact parse_write indentedLayout v hv

end SchemaRename.Json
