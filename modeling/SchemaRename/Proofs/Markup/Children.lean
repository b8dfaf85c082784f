import SchemaRename.Markup.Element

/-!
# Children by Their Names

What is found below an element, and what changes when a child does.

The children of an element are a list, and they are looked for by name. For
the most part only the first child of a name counts, so a second one is not
seen and stays as it is. Changes are made one after the other on a list that
may grow on the way, and what they come to is best said by places in the list:
the child at a place has another text if it is the first of its name, and
everything behind the old children is new.

## Main definitions

* `IsFirstOfName`: No element before a place has the same name.
* `Element.HasFirstValue`: The first child of a name has a value.
* `Element.Reaches`: An element at the end of a path of names.
* `rewriteFirsts`: The first element of each name with another text.
* `absent`: What is put behind a list that has no element of a name.

## Theorems

* `Element.firstValue?_eq_some_iff`: The value of the first child.
* `Element.mem_descendantsAt`: What is found by going down a path.
* `children_setFirstValue`: One change, by places.
-/

namespace SchemaRename.Markup

/-- No element before a place in a list has the name of the one there. -/
def IsFirstOfName (l : List Element) (i : Nat) : Prop :=
  ∀ j < i, (l[j]?).map (·.name) ≠ (l[i]?).map (·.name)

instance (l : List Element) (i : Nat) : Decidable (IsFirstOfName l i) :=
  inferInstanceAs (Decidable (∀ j < i, (l[j]?).map (·.name) ≠ (l[i]?).map (·.name)))

namespace Element

/-- The first child of a name has a value as its text. -/
def HasFirstValue (e : Element) (name value : String) : Prop :=
  ∃ i child, e.children[i]? = some child ∧ child.name = name ∧ IsFirstOfName e.children i ∧
    child.text = some value

theorem firstValue?_eq_some_iff (e : Element) (name value : String) :
    e.firstValue? name = some value ↔ e.HasFirstValue name value := by
  rw [firstValue?, Option.bind_eq_some_iff]
  constructor
  · rintro ⟨child, hfind, htext⟩
    obtain ⟨hname, i, hi, hchild, hbefore⟩ := List.find?_eq_some_iff_getElem.mp hfind
    have hat : e.children[i]? = some child := List.getElem?_eq_some_iff.mpr ⟨hi, hchild⟩
    refine ⟨i, child, hat, beq_iff_eq.mp hname, fun j hj => ?_, htext⟩
    have hother := hbefore j hj
    rw [hat, List.getElem?_eq_getElem (Nat.lt_trans hj hi), Option.map_some, Option.map_some,
      beq_iff_eq.mp hname]
    simpa using hother
  · rintro ⟨i, child, hat, rfl, hfirst, htext⟩
    obtain ⟨hi, hchild⟩ := List.getElem?_eq_some_iff.mp hat
    refine ⟨child, List.find?_eq_some_iff_getElem.mpr ⟨by simp, i, hi, hchild, fun j hj => ?_⟩,
      htext⟩
    have hother := hfirst j hj
    rw [hat, List.getElem?_eq_getElem (Nat.lt_trans hj hi)] at hother
    simpa using hother

/-- An element at the end of a path of names, starting from another one. -/
inductive Reaches : Element → List String → Element → Prop
  | here (e : Element) : Reaches e [] e
  | child {e child last : Element} {names : List String} (hmem : child ∈ e.children)
      (hrest : Reaches child names last) : Reaches e (child.name :: names) last

theorem mem_descendantsAt (e last : Element) (path : List String) :
    last ∈ e.descendantsAt path ↔ Reaches e path last := by
  have hall : ∀ starts : List Element,
      last ∈ path.foldl
        (fun reached name => reached.flatMap fun e => e.children.filter (·.name == name)) starts ↔
      ∃ start ∈ starts, Reaches start path last := by
    induction path with
    | nil =>
        intro starts
        constructor
        · exact fun hmem => ⟨last, hmem, .here last⟩
        · rintro ⟨start, hmem, hreaches⟩
          cases hreaches
          exact hmem
    | cons name names ih =>
        intro starts
        rw [List.foldl_cons, ih]
        constructor
        · rintro ⟨child, hchild, hreaches⟩
          obtain ⟨start, hstart, hmem⟩ := List.mem_flatMap.mp hchild
          obtain ⟨hmem, hname⟩ := List.mem_filter.mp hmem
          rw [← beq_iff_eq.mp hname]
          exact ⟨start, hstart, .child hmem hreaches⟩
        · rintro ⟨start, hstart, hreaches⟩
          cases hreaches with
          | child hmem hrest =>
              exact ⟨_, List.mem_flatMap.mpr ⟨start, hstart, List.mem_filter.mpr ⟨hmem, by simp⟩⟩,
                hrest⟩
  rw [descendantsAt, hall]
  simp

end Element

/-- The first element of each name with another text, which may depend on the
    name and the old text. -/
def rewriteFirsts (text : String → Option String → Option String) (l : List Element) :
    List Element :=
  l.mapIdx fun i e => if IsFirstOfName l i then { e with text := text e.name e.text } else e

section Firsts

variable (text : String → Option String → Option String) (l : List Element)

theorem getElem?_rewriteFirsts (i : Nat) :
    (rewriteFirsts text l)[i]? = (l[i]?).map fun e =>
      if IsFirstOfName l i then { e with text := text e.name e.text } else e := by
  rw [rewriteFirsts, List.getElem?_mapIdx]

theorem length_rewriteFirsts : (rewriteFirsts text l).length = l.length := by
  rw [rewriteFirsts, List.length_mapIdx]

theorem name_rewriteFirsts (i : Nat) :
    ((rewriteFirsts text l)[i]?).map (·.name) = (l[i]?).map (·.name) := by
  rw [getElem?_rewriteFirsts, Option.map_map]
  congr 1
  funext e
  simp only [Function.comp_apply]
  split <;> rfl

/-- Texts do not matter to who is first. -/
theorem isFirstOfName_rewriteFirsts (i : Nat) :
    IsFirstOfName (rewriteFirsts text l) i ↔ IsFirstOfName l i := by
  simp only [IsFirstOfName, name_rewriteFirsts]

theorem any_rewriteFirsts (name : String) :
    (rewriteFirsts text l).any (·.name == name) = l.any (·.name == name) := by
  have hnames : (rewriteFirsts text l).map (·.name) = l.map (·.name) := by
    apply List.ext_getElem?
    intro i
    rw [List.getElem?_map, List.getElem?_map, name_rewriteFirsts]
  have hany : ∀ m : List Element, m.any (·.name == name) = (m.map (·.name)).any (· == name) := by
    intro m
    rw [List.any_map]
    rfl
  rw [hany, hany, hnames]

/-- Texts that differ for absent names only make no difference. -/
theorem rewriteFirsts_congr (text' : String → Option String → Option String)
    (h : ∀ e ∈ l, text' e.name = text e.name) : rewriteFirsts text' l = rewriteFirsts text l := by
  apply List.ext_getElem?
  intro i
  rw [getElem?_rewriteFirsts, getElem?_rewriteFirsts]
  cases he : l[i]? with
  | none => rfl
  | some e => rw [Option.map_some, Option.map_some, h e (List.mem_of_getElem? he)]

theorem rewriteFirsts_self : rewriteFirsts (fun _ s => s) l = l := by
  apply List.ext_getElem?
  intro i
  rw [getElem?_rewriteFirsts]
  cases l[i]? with
  | none => rfl
  | some e =>
      cases e
      rw [Option.map_some]
      split <;> rfl

end Firsts

theorem getElem?_updateFirst (name : String) (change : Element → Element) (l : List Element)
    (i : Nat) :
    (Element.updateFirst name change l)[i]? = (l[i]?).map fun e =>
      if e.name = name ∧ IsFirstOfName l i then change e else e := by
  induction l generalizing i with
  | nil => simp [Element.updateFirst]
  | cons e rest ih =>
      rw [Element.updateFirst]
      by_cases hname : e.name = name
      · rw [if_pos (by simpa using hname)]
        cases i with
        | zero => simp [hname, IsFirstOfName]
        | succ i =>
            -- An element further back with the name is not the first one.
            rw [List.getElem?_cons_succ, List.getElem?_cons_succ]
            cases hk : rest[i]? with
            | none => rfl
            | some k =>
                rw [Option.map_some, if_neg]
                rintro ⟨hkname, hfirst⟩
                exact hfirst 0 (Nat.succ_pos i) (by simp [hk, hname, hkname])
      · rw [if_neg (by simpa using hname)]
        cases i with
        | zero => simp [hname]
        | succ i =>
            rw [List.getElem?_cons_succ, List.getElem?_cons_succ, ih]
            cases hk : rest[i]? with
            | none => rfl
            | some k =>
                -- The element in front has another name, so it does not get in the
                -- way of those that have this one.
                have hfirst : k.name = name →
                    (IsFirstOfName (e :: rest) (i + 1) ↔ IsFirstOfName rest i) := by
                  intro hkname
                  constructor
                  · intro h j hj
                    exact h (j + 1) (by omega)
                  · intro h j hj
                    cases j with
                    | zero => simpa [hk, hkname] using hname
                    | succ j => exact h j (by omega)
                rw [Option.map_some, Option.map_some]
                by_cases hkname : k.name = name
                · simp only [hkname, hfirst hkname, true_and]
                · simp only [hkname, false_and]

/-- A change to the text of the first element of one name, on top of others. -/
theorem updateFirst_rewriteFirsts (name : String) (change : Option String → Option String)
    (text : String → Option String → Option String) (l : List Element) :
    Element.updateFirst name (fun e => { e with text := change e.text }) (rewriteFirsts text l) =
      rewriteFirsts (fun n s => if n = name then change (text n s) else text n s) l := by
  apply List.ext_getElem?
  intro i
  rw [getElem?_updateFirst, getElem?_rewriteFirsts, getElem?_rewriteFirsts, Option.map_map]
  congr 1
  funext e
  simp only [Function.comp_apply, isFirstOfName_rewriteFirsts]
  by_cases hfirst : IsFirstOfName l i
  · simp only [hfirst, if_true, and_true]
    split <;> rfl
  · simp only [hfirst, and_false, if_false]

theorem updateFirst_append (name : String) (change : Element → Element) (l added : List Element)
    (h : ∀ e ∈ added, e.name ≠ name) :
    Element.updateFirst name change (l ++ added) = Element.updateFirst name change l ++ added := by
  induction l with
  | nil =>
      induction added with
      | nil => rfl
      | cons e added ih =>
          have hrest := ih fun e he => h e (List.mem_cons_of_mem _ he)
          rw [List.nil_append] at hrest
          rw [List.nil_append, Element.updateFirst.eq_2,
            if_neg (by simpa using h e List.mem_cons_self), hrest]
          rfl
  | cons e l ih =>
      rw [List.cons_append, Element.updateFirst, Element.updateFirst]
      split
      · rfl
      · rw [ih]
        rfl

/-- What is put behind a list that has no element of a name. -/
def absent (name value : String) (l : List Element) : List Element :=
  if l.any (·.name == name) then [] else [{ name, text := some value }]

theorem name_of_mem_absent (name value : String) (l : List Element) (e : Element)
    (h : e ∈ absent name value l) : e.name = name := by
  rw [absent] at h
  split at h
  · cases h
  · rw [List.mem_singleton.mp h]

/-- One change to a definition, on top of others that have rewritten texts and
    added children of other names. -/
theorem children_setFirstValue (e : Element) (text : String → Option String → Option String)
    (l added : List Element) (name value : String)
    (hchildren : e.children = rewriteFirsts text l ++ added)
    (hadded : ∀ a ∈ added, a.name ≠ name) :
    (e.setFirstValue name value).children =
      rewriteFirsts (fun n s => if n = name then some value else text n s) l ++
        (added ++ absent name value l) := by
  have hany : e.children.any (·.name == name) = l.any (·.name == name) := by
    have hnone : added.any (·.name == name) = false := by
      simpa [List.any_eq_false] using hadded
    rw [hchildren, List.any_append, any_rewriteFirsts, hnone, Bool.or_false]
  rw [Element.setFirstValue, hany, absent]
  split
  · rw [List.append_nil, hchildren, updateFirst_append _ _ _ _ hadded,
      updateFirst_rewriteFirsts name fun _ => some value]
  · next habsent =>
      -- No old child has the name, so the text for it is not used.
      have hnone : ∀ k ∈ l, k.name ≠ name := by
        simpa [List.any_eq_true] using habsent
      have hsame := rewriteFirsts_congr text l
        (fun n s => if n = name then some value else text n s) fun k hk => by
          funext s
          rw [if_neg (hnone k hk)]
      rw [hchildren, List.append_assoc, hsame]

theorem setFirstValue_frame (e : Element) (name value : String) :
    (e.setFirstValue name value).name = e.name ∧
      (e.setFirstValue name value).attributes = e.attributes ∧
      (e.setFirstValue name value).text = e.text := by
  rw [Element.setFirstValue]
  split <;> exact ⟨rfl, rfl, rfl⟩

end SchemaRename.Markup
