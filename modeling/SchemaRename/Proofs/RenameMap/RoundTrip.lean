import Mathlib.Data.String.Basic
import SchemaRename.Proofs.Json.Layouts
import SchemaRename.RenameMap.Decode
import SchemaRename.RenameMap.Encode

/-!
# Rename Maps from Their Own Text

A map that was read can be written, and reading that gives the same map.

Reading and writing are two separate accounts of one format, and they have to
agree kind by kind: texts, lists, members that may be left out, records. Each
kind fits together in the same sense, and kinds made of others fit together
because their parts do.

A reader gives more than some value. The patterns of a scope list come sorted
by extension, each extension once, and none of them is the key that the
exceptions stand under. Only a list like that survives being written, where
extensions and exceptions share an object. So what a reader establishes is
carried along with what it gives back.

## Main definitions

* `FitTogether`: A reader and a writer of one kind of value.
* `MemberFits`: The same for a member of a record, which may be left out.
* `present`: The members of a record that are there.
* `ScopeList.IsSorted`: What a scope list that was read is like.
* `RenameMap.IsSorted`: A map whose scope lists are all like that.

## Theorems

* `FitTogether.list`, `MemberFits.optional`: Kinds made of others.
* `recordMembers_present`: The members of a record come back in order.
* `FitTogether.record`: Records.
* `fitTogether_scopeList`: Scope lists.
* `fitTogether_renameMap`: Maps as values.
* `parse_render_of_parse`: Maps as text.
-/

namespace SchemaRename

open SchemaRename.Json

theorem bind_eq_ok_iff {ε α β : Type} (x : Except ε α) (f : α → Except ε β) (b : β) :
    x >>= f = .ok b ↔ ∃ a, x = .ok a ∧ f a = .ok b := by
  cases x <;> simp [bind, Except.bind]

theorem map_eq_ok_iff {ε α β : Type} (f : α → β) (x : Except ε α) (b : β) :
    x.map f = .ok b ↔ ∃ a, x = .ok a ∧ f a = b := by
  cases x <;> simp [Except.map]

/-- A list is read member by member. -/
theorem mapM_map_eq_ok {ε α β γ : Type} (l : List α) (f : α → β) (g : β → Except ε γ) (h : α → γ)
    (hall : ∀ a ∈ l, g (f a) = .ok (h a)) : (l.map f).mapM g = .ok (l.map h) := by
  induction l with
  | nil => rfl
  | cons a l ih =>
      rw [List.map_cons, List.mapM_cons, hall a List.mem_cons_self,
        ih fun b hb => hall b (List.mem_cons_of_mem a hb)]
      rfl

theorem mem_of_mapM_eq_ok {ε α β : Type} (l : List α) (f : α → Except ε β) (bs : List β)
    (h : l.mapM f = .ok bs) : ∀ b ∈ bs, ∃ a, f a = .ok b := by
  induction l generalizing bs with
  | nil =>
      cases h
      simp
  | cons a l ih =>
      rw [List.mapM_cons, bind_eq_ok_iff] at h
      obtain ⟨b, hb, h⟩ := h
      rw [bind_eq_ok_iff] at h
      obtain ⟨rest, hrest, h⟩ := h
      cases h
      intro c hc
      rcases List.mem_cons.mp hc with rfl | hc
      · exact ⟨a, hb⟩
      · exact ih rest hrest c hc

/-- A reader and a writer of one kind of value: what is read is proper, what is
    proper is read as it was written, and what is written is a text or made of
    texts. -/
structure FitTogether {α : Type} (read : Decoder α) (write : α → Json) (P : α → Prop) : Prop where
  yields : ∀ v a, read v = .ok a → P a
  restores : ∀ a, P a → read (write a) = .ok a
  lettered : ∀ a, IsLettered (write a)
  ne_null : ∀ a, write a ≠ .null

theorem fitTogether_text : FitTogether .text .str fun _ => True :=
  ⟨fun _ _ _ => trivial, fun _ _ => rfl, .str, fun _ => by simp [Json.str]⟩

theorem fitTogether_bool : FitTogether .bool .bool fun _ => True :=
  ⟨fun _ _ _ => trivial, fun _ _ => rfl, .bool, fun _ => by simp⟩

theorem FitTogether.list {α : Type} {read : Decoder α} {write : α → Json} {P : α → Prop}
    (h : FitTogether read write P) :
    FitTogether (.list read) (fun items => .array (items.map write))
      fun items => ∀ a ∈ items, P a := by
  refine ⟨?_, ?_, ?_, fun _ => by simp⟩
  · intro v items hread
    cases v with
    | array vs =>
        intro a ha
        obtain ⟨v, hv⟩ := mem_of_mapM_eq_ok vs read items hread a ha
        exact h.yields v a hv
    | _ => cases hread
  · intro items hitems
    have hall := mapM_map_eq_ok items write read id fun a ha => h.restores a (hitems a ha)
    rwa [List.map_id] at hall
  · intro items
    refine .array _ fun v hv => ?_
    obtain ⟨a, -, rfl⟩ := List.mem_map.mp hv
    exact h.lettered a

/-- A member of a record, which a writer may leave out. -/
structure MemberFits {α : Type} (read : Option Json → Except Fault α) (write : α → Option Json)
    (P : α → Prop) : Prop where
  yields : ∀ v a, read v = .ok a → P a
  restores : ∀ a, P a → read (write a) = .ok a
  lettered : ∀ a v, write a = some v → IsLettered v

section Member

variable {α : Type} {read : Decoder α} {write : α → Json} {P : α → Prop}
  (h : FitTogether read write P)
include h

theorem MemberFits.withDefault (default : α) (hdefault : P default) :
    MemberFits (memberOr read default) (fun a => some (write a)) P := by
  refine ⟨?_, h.restores, ?_⟩
  · intro v a hread
    cases v with
    | none =>
        cases hread
        exact hdefault
    | some v => exact h.yields v a hread
  · rintro a v ⟨⟩
    exact h.lettered a

theorem MemberFits.required (key : String) :
    MemberFits (memberRequired key read) (fun a => some (write a)) P := by
  refine ⟨?_, h.restores, ?_⟩
  · intro v a hread
    cases v with
    | none => cases hread
    | some v => exact h.yields v a hread
  · rintro a v ⟨⟩
    exact h.lettered a

/-- A member that is left out when there is no value for it. -/
theorem MemberFits.optional :
    MemberFits (memberOr (.nullable read) none) (·.map write) fun o => ∀ a ∈ o, P a := by
  refine ⟨?_, ?_, ?_⟩
  · intro v o hread
    cases v with
    | none =>
        cases hread
        simp
    | some v =>
        rw [memberOr, Decoder.nullable.eq_def] at hread
        split at hread
        · cases hread
          simp
        · obtain ⟨a, ha, rfl⟩ := (map_eq_ok_iff _ _ _).mp hread
          simpa using h.yields v a ha
  · intro o ho
    cases o with
    | none => rfl
    | some a =>
        change Decoder.nullable read (write a) = _
        rw [Decoder.nullable, h.restores a (ho a rfl)]
        · rfl
        · exact h.ne_null a
  · intro o v hv
    obtain ⟨a, -, rfl⟩ := Option.map_eq_some_iff.mp hv
    exact h.lettered a

end Member

theorem isLettered_obj (members : List (String × Json)) (h : ∀ m ∈ members, IsLettered m.2) :
    IsLettered (.obj members) := by
  refine .object _ ?_ ?_
  · intro m hm
    obtain ⟨member, -, rfl⟩ := List.mem_map.mp hm
    rfl
  · intro m hm
    obtain ⟨member, hmember, rfl⟩ := List.mem_map.mp hm
    exact h member hmember

/-- The members of a record that are there. -/
def present (slots : List (String × Option Json)) : List (String × Json) :=
  slots.filterMap fun slot => slot.2.map (slot.1, ·)

theorem present_cons (slot : String × Option Json) (slots : List (String × Option Json)) :
    present (slot :: slots) = slot.2.toList.map (slot.1, ·) ++ present slots := by
  rw [present, List.filterMap_cons]
  cases slot.2 <;> rfl

theorem mem_present (slots : List (String × Option Json)) (m : String × Json) :
    m ∈ present slots ↔ (m.1, some m.2) ∈ slots := by
  obtain ⟨key, v⟩ := m
  rw [present, List.mem_filterMap]
  constructor
  · rintro ⟨⟨key', o⟩, hslot, hv⟩
    obtain ⟨w, rfl, heq⟩ := Option.map_eq_some_iff.mp hv
    cases heq
    exact hslot
  · exact fun hslot => ⟨_, hslot, rfl⟩

/-- The members with the key of a slot are what is in the slot. -/
theorem filter_present (slots : List (String × Option Json))
    (hnodup : (slots.map Prod.fst).Nodup) (slot : String × Option Json) (hslot : slot ∈ slots) :
    (present slots).filter (·.1 == slot.1) = slot.2.toList.map (slot.1, ·) := by
  induction slots with
  | nil => simp at hslot
  | cons first slots ih =>
      obtain ⟨hfirst, hrest⟩ := List.nodup_cons.mp hnodup
      rw [present_cons, List.filter_append]
      rcases List.mem_cons.mp hslot with rfl | hslot
      · -- Nothing behind the slot has its key.
        rw [List.filter_eq_self.mpr (by simp), List.filter_eq_nil_iff.mpr, List.append_nil]
        intro m hm hkey
        rw [beq_iff_eq] at hkey
        exact hfirst (List.mem_map.mpr ⟨_, (mem_present slots m).mp hm, hkey⟩)
      · have hne : first.1 ≠ slot.1 := fun heq => hfirst (heq ▸ List.mem_map_of_mem hslot)
        rw [List.filter_eq_nil_iff.mpr (by simp [hne]), List.nil_append, ih hrest hslot]

/-- A key of its own finds its member, or nothing if the member is not
    there. -/
theorem uniqueMember_present (slots : List (String × Option Json))
    (hnodup : (slots.map Prod.fst).Nodup) (slot : String × Option Json) (hslot : slot ∈ slots) :
    uniqueMember slot.1 ((present slots).map fun (key, value) => (some key, value)) =
      .ok slot.2 := by
  have hfilter : ((present slots).map fun (key, value) => (some key, value)).filter
      (·.1 == some slot.1) = slot.2.toList.map (some slot.1, ·) := by
    rw [List.filter_map]
    have hsame : ((·.1 == some slot.1) : Option String × Json → Bool) ∘
        (fun (key, value) => (some key, value)) = (·.1 == slot.1) := by
      funext m
      simp
    rw [hsame, filter_present slots hnodup slot hslot, List.map_map]
    rfl
  rw [uniqueMember, hfilter]
  cases slot.2 <;> rfl

/-- The members of a record come back in order, whichever of them are
    there. -/
theorem recordMembers_present (slots : List (String × Option Json))
    (hnodup : (slots.map Prod.fst).Nodup) :
    recordMembers (slots.map Prod.fst) (.obj (present slots)) = .ok (slots.map Prod.snd) := by
  rw [Json.obj, recordMembers, if_neg (by simp)]
  exact mapM_map_eq_ok slots _ _ _ fun slot hslot => uniqueMember_present slots hnodup slot hslot

/-- A reader and a writer of records with the same members. -/
theorem FitTogether.record {α : Type} {decode : Decoder α} {encode : α → Json} {P : α → Prop}
    (keys : List String) (slots : α → List (String × Option Json))
    (read : List (Option Json) → Except Fault α)
    (hdecode : ∀ v, decode v = recordMembers keys v >>= read)
    (hencode : ∀ a, encode a = .obj (present (slots a)))
    (hkeys : ∀ a, (slots a).map Prod.fst = keys) (hnodup : keys.Nodup)
    (hyields : ∀ members a, read members = .ok a → P a)
    (hrestores : ∀ a, P a → read ((slots a).map Prod.snd) = .ok a)
    (hlettered : ∀ a, ∀ slot ∈ slots a, ∀ v, slot.2 = some v → IsLettered v) :
    FitTogether decode encode P := by
  refine ⟨?_, ?_, ?_, ?_⟩
  · intro v a hread
    rw [hdecode, bind_eq_ok_iff] at hread
    obtain ⟨members, -, hmembers⟩ := hread
    exact hyields members a hmembers
  · intro a ha
    rw [hdecode, hencode, ← hkeys a, recordMembers_present _ (hkeys a ▸ hnodup)]
    exact hrestores a ha
  · intro a
    rw [hencode]
    exact isLettered_obj _ fun m hm =>
      hlettered a _ ((mem_present (slots a) m).mp hm) m.2 rfl
  · intro a
    rw [hencode]
    simp [Json.obj]

/-- A scope list as a reader gives it: each extension once, in order, and none
    of them the key of the exceptions. -/
structure ScopeList.IsSorted (l : ScopeList) : Prop where
  sorted : l.byExtension.Pairwise fun a b => a.1 < b.1
  proper : ∀ e ∈ l.byExtension, e.1 ≠ exceptionKey

theorem mem_setPatterns (extension : String) (patterns : List String)
    (l : List (String × List String)) :
    ∀ e ∈ setPatterns extension patterns l, e = (extension, patterns) ∨ e ∈ l := by
  induction l with
  | nil => simp [setPatterns]
  | cons first l ih =>
      intro e he
      rw [setPatterns] at he
      split at he
      · rcases List.mem_cons.mp he with heq | he
        · exact Or.inl heq
        · exact Or.inr (List.mem_cons_of_mem first he)
      · split at he
        · exact List.mem_cons.mp he
        · rcases List.mem_cons.mp he with rfl | he
          · exact Or.inr List.mem_cons_self
          · exact (ih e he).imp_right (List.mem_cons_of_mem first)

theorem sorted_setPatterns (extension : String) (patterns : List String)
    (l : List (String × List String)) (h : l.Pairwise fun a b => a.1 < b.1) :
    (setPatterns extension patterns l).Pairwise fun a b => a.1 < b.1 := by
  induction l with
  | nil => simp [setPatterns]
  | cons first l ih =>
      obtain ⟨hfirst, hrest⟩ := List.pairwise_cons.mp h
      rw [setPatterns]
      split
      · next hsame =>
          rw [beq_iff_eq] at hsame
          exact List.pairwise_cons.mpr ⟨fun b hb => hsame ▸ hfirst b hb, hrest⟩
      · next hne =>
          rw [beq_iff_eq] at hne
          split
          · next hlt =>
              refine List.pairwise_cons.mpr ⟨?_, h⟩
              intro b hb
              rcases List.mem_cons.mp hb with rfl | hb
              · exact hlt
              · exact lt_trans hlt (hfirst b hb)
          · next hnot =>
              refine List.pairwise_cons.mpr ⟨?_, ih hrest⟩
              intro b hb
              rcases mem_setPatterns extension patterns l b hb with rfl | hb
              · exact lt_of_le_of_ne (not_lt.mp hnot) (Ne.symm hne)
              · exact hfirst b hb

/-- A greater extension goes to the end. -/
theorem setPatterns_of_lt (extension : String) (patterns : List String)
    (l : List (String × List String)) (h : ∀ e ∈ l, e.1 < extension) :
    setPatterns extension patterns l = l ++ [(extension, patterns)] := by
  induction l with
  | nil => rfl
  | cons first l ih =>
      have hfirst := h first List.mem_cons_self
      rw [setPatterns, if_neg (by simpa using ne_of_gt hfirst), if_neg (lt_asymm hfirst),
        ih fun e he => h e (List.mem_cons_of_mem first he)]
      rfl

/-- Whatever members are added, the extensions stay as they should be. -/
theorem foldlM_addScopeMember_sorted (members : List (Option String × Json))
    (before after : List (String × List String))
    (hbefore : before.Pairwise (fun a b => a.1 < b.1) ∧ ∀ e ∈ before, e.1 ≠ exceptionKey)
    (h : members.foldlM addScopeMember before = .ok after) :
    after.Pairwise (fun a b => a.1 < b.1) ∧ ∀ e ∈ after, e.1 ≠ exceptionKey := by
  induction members generalizing before with
  | nil =>
      cases h
      exact hbefore
  | cons member members ih =>
      rw [List.foldlM_cons, bind_eq_ok_iff] at h
      obtain ⟨next, hnext, h⟩ := h
      refine ih next ?_ h
      rw [addScopeMember.eq_def] at hnext
      split at hnext
      · cases hnext
      · next key value =>
          split at hnext
          · -- Exceptions are left to another reader.
            cases hnext
            exact hbefore
          · next hkey =>
              obtain ⟨patterns, -, rfl⟩ := (map_eq_ok_iff _ _ _).mp hnext
              refine ⟨sorted_setPatterns key patterns before hbefore.1, ?_⟩
              intro e he
              rcases mem_setPatterns key patterns before e he with rfl | he
              · simpa using hkey
              · exact hbefore.2 e he

/-- Sorted extensions are added one behind the other. -/
theorem foldlM_addScopeMember_patterns (before l : List (String × List String))
    (hsorted : (before ++ l).Pairwise fun a b => a.1 < b.1)
    (hproper : ∀ e ∈ l, e.1 ≠ exceptionKey) :
    (l.map fun e => (some e.1, Json.strs e.2)).foldlM addScopeMember before =
      .ok (before ++ l) := by
  induction l generalizing before with
  | nil => rw [List.append_nil]; rfl
  | cons e l ih =>
      -- Everything that is there already comes before the new extension.
      have hlt : ∀ a ∈ before, a.1 < e.1 := fun a ha =>
        (List.pairwise_append.mp hsorted).2.2 a ha e List.mem_cons_self
      have hadded : addScopeMember before (some e.1, Json.strs e.2) = .ok (before ++ [e]) := by
        have hpatterns : Decoder.list .text (Json.strs e.2) = .ok e.2 :=
          fitTogether_text.list.restores e.2 fun _ _ => trivial
        rw [addScopeMember, if_neg (by simpa using hproper e List.mem_cons_self), hpatterns,
          Except.map, setPatterns_of_lt e.1 e.2 before hlt]
      have hrest := ih (before ++ [e]) (by rwa [List.append_assoc])
        fun a ha => hproper a (List.mem_cons_of_mem e ha)
      rw [List.append_assoc] at hrest
      rw [List.map_cons, List.foldlM_cons, hadded]
      exact hrest

/-- The members of a scope list: the exceptions, if there are any, and the
    patterns of each extension. -/
def scopeSlots (l : ScopeList) : List (String × Option Json) :=
  (exceptionKey, if l.exceptions.isEmpty then none else some (Json.strs l.exceptions)) ::
    l.byExtension.map fun e => (e.1, some (Json.strs e.2))

theorem present_scopeSlots (l : ScopeList) :
    present (scopeSlots l) = Json.nonempty exceptionKey .str l.exceptions ++
      l.byExtension.map fun e => (e.1, Json.strs e.2) := by
  have hpatterns : present (l.byExtension.map fun e => (e.1, some (Json.strs e.2))) =
      l.byExtension.map fun e => (e.1, Json.strs e.2) := by
    rw [present, List.filterMap_map]
    exact congrFun List.filterMap_eq_map' _
  rw [scopeSlots, present_cons, hpatterns, Json.nonempty]
  split <;> rfl

theorem ScopeList.toJson_eq (l : ScopeList) : l.toJson = .obj (present (scopeSlots l)) := by
  rw [present_scopeSlots]
  rfl

theorem nodup_scopeSlots (l : ScopeList) (h : l.IsSorted) :
    ((scopeSlots l).map Prod.fst).Nodup := by
  have hkeys : (scopeSlots l).map Prod.fst = exceptionKey :: l.byExtension.map Prod.fst := by
    simp [scopeSlots]
  rw [hkeys, List.nodup_cons]
  refine ⟨?_, ?_⟩
  · intro hmem
    obtain ⟨e, he, heq⟩ := List.mem_map.mp hmem
    exact h.proper e he heq
  · exact (List.pairwise_map.mpr h.sorted).imp ne_of_lt

/-- Scope lists are read as they were written, and only sorted ones are read. -/
theorem fitTogether_scopeList :
    FitTogether ScopeList.ofJson ScopeList.toJson ScopeList.IsSorted := by
  refine ⟨?_, ?_, ?_, ?_⟩
  · intro v l hread
    cases v with
    | object members =>
        rw [ScopeList.ofJson, bind_eq_ok_iff] at hread
        obtain ⟨byExtension, hfold, hread⟩ := hread
        obtain ⟨hsorted, hproper⟩ :=
          foldlM_addScopeMember_sorted members [] byExtension (by simp) hfold
        -- The exceptions may be anything.
        simp only [bind_eq_ok_iff] at hread
        obtain ⟨_, -, exceptions, -, hread⟩ := hread
        cases hread
        exact ⟨hsorted, hproper⟩
    | _ => cases hread
  · intro l hl
    -- The exceptions come first and add nothing to the extensions.
    have hfold : ((present (scopeSlots l)).map fun (key, value) => (some key, value)).foldlM
        addScopeMember [] = .ok l.byExtension := by
      have hexceptions : ((Json.nonempty exceptionKey .str l.exceptions).map
          fun (key, value) => (some key, value)).foldlM addScopeMember [] = .ok [] := by
        rw [Json.nonempty]
        split <;> rfl
      rw [present_scopeSlots, List.map_append, List.foldlM_append, hexceptions, List.map_map]
      exact foldlM_addScopeMember_patterns [] l.byExtension hl.sorted hl.proper
    have hunique := uniqueMember_present (scopeSlots l) (nodup_scopeSlots l hl) _ List.mem_cons_self
    -- Exceptions that are not written are none.
    have hexceptions : memberOr (.list .text) [] (if l.exceptions.isEmpty then none
        else some (Json.strs l.exceptions)) = .ok l.exceptions := by
      split
      · next hempty =>
          rw [List.isEmpty_iff.mp hempty]
          rfl
      · exact fitTogether_text.list.restores l.exceptions fun _ _ => trivial
    rw [ScopeList.toJson_eq, Json.obj, ScopeList.ofJson, hfold, hunique]
    simp only [bind, Except.bind, hexceptions, pure, Except.pure]
  · intro l
    rw [ScopeList.toJson_eq, present_scopeSlots]
    refine isLettered_obj _ fun m hm => ?_
    rcases List.mem_append.mp hm with hm | hm
    · rw [Json.nonempty] at hm
      split at hm
      · simp at hm
      · rw [List.mem_singleton.mp hm]
        exact fitTogether_text.list.lettered l.exceptions
    · obtain ⟨e, -, rfl⟩ := List.mem_map.mp hm
      exact fitTogether_text.list.lettered e.2
  · intro l
    rw [ScopeList.toJson]
    simp [Json.obj]

theorem fitTogether_template : FitTogether Template.ofJson Template.toJson fun _ => True := by
  have htext := MemberFits.withDefault fitTogether_text "" trivial
  have hoptional := MemberFits.optional fitTogether_text
  refine FitTogether.record templateKeys
    (fun t => [("name", some (.str t.name)), ("before", some (.str t.before)),
      ("after", some (.str t.after)), ("replacementPrefix", t.replacementPrefix.map .str),
      ("replacementSuffix", t.replacementSuffix.map .str),
      ("affecteditems", t.affectedItems.map .str)])
    _ (fun v => rfl) ?_ (fun t => rfl) (by decide) (fun _ _ _ => trivial) ?_ ?_
  · rintro ⟨_, _, _, _ | _, _ | _, _ | _⟩ <;> rfl
  · intro t _
    simp only [List.map_cons, List.map_nil, htext.restores _ trivial,
      hoptional.restores _ fun _ _ => trivial]
    rfl
  · intro t
    simp only [List.forall_mem_cons]
    exact ⟨htext.lettered _, htext.lettered _, htext.lettered _, hoptional.lettered _,
      hoptional.lettered _, hoptional.lettered _, by simp⟩

/-- The scope lists of a field are as a reader gives them. -/
structure FieldRename.IsSorted (r : FieldRename) : Prop where
  exclude : ∀ l ∈ r.exclude, l.IsSorted
  include_ : ∀ l ∈ r.include_, l.IsSorted

theorem fitTogether_field :
    FitTogether FieldRename.ofJson FieldRename.toJson FieldRename.IsSorted := by
  have htext := MemberFits.withDefault fitTogether_text "" trivial
  have hbool := MemberFits.withDefault fitTogether_bool false trivial
  have hscope := MemberFits.optional fitTogether_scopeList
  refine FitTogether.record fieldKeys
    (fun r => [("previousField", some (.str r.previousField)),
      ("newField", some (.str r.newField)), ("caseSensitive", some (.bool r.caseSensitive)),
      ("exclude", r.exclude.map ScopeList.toJson), ("include", r.include_.map ScopeList.toJson)])
    _ (fun v => rfl) ?_ (fun r => rfl) (by decide) ?_ ?_ ?_
  · rintro ⟨_, _, _, _ | _, _ | _⟩ <;> rfl
  · intro members r hread
    split at hread
    · simp only [bind_eq_ok_iff] at hread
      obtain ⟨_, -, _, -, _, -, exclude, hexclude, include_, hinclude, hr⟩ := hread
      cases hr
      exact ⟨hscope.yields _ exclude hexclude, hscope.yields _ include_ hinclude⟩
    · cases hread
  · intro r hr
    simp only [List.map_cons, List.map_nil, htext.restores _ trivial, hbool.restores _ trivial,
      hscope.restores _ hr.exclude, hscope.restores _ hr.include_]
    rfl
  · intro r
    simp only [List.forall_mem_cons]
    exact ⟨htext.lettered _, htext.lettered _, hbool.lettered _, hscope.lettered _,
      hscope.lettered _, by simp⟩

/-- The scope lists of an object and its fields are as a reader gives them. -/
structure ObjectRename.IsSorted (r : ObjectRename) : Prop where
  exclude : ∀ l ∈ r.exclude, l.IsSorted
  include_ : ∀ l ∈ r.include_, l.IsSorted
  fields : ∀ field ∈ r.fields, field.IsSorted

theorem fitTogether_object :
    FitTogether ObjectRename.ofJson ObjectRename.toJson ObjectRename.IsSorted := by
  have htext := MemberFits.withDefault fitTogether_text "" trivial
  have hoptional := MemberFits.optional fitTogether_text
  have hbool := MemberFits.withDefault fitTogether_bool false trivial
  have hscope := MemberFits.optional fitTogether_scopeList
  have hfields := MemberFits.withDefault fitTogether_field.list [] (by simp)
  refine FitTogether.record objectKeys
    (fun r => [("previousObject", some (.str r.previousObject)),
      ("newObject", some (.str r.newObject)), ("newLabel", r.newLabel.map .str),
      ("caseSensitive", some (.bool r.caseSensitive)),
      ("exclude", r.exclude.map ScopeList.toJson), ("include", r.include_.map ScopeList.toJson),
      ("fieldsMapping", some (.array (r.fields.map FieldRename.toJson)))])
    _ (fun v => rfl) ?_ (fun r => rfl) (by decide) ?_ ?_ ?_
  · rintro ⟨_, _, _ | _, _, _ | _, _ | _, _⟩ <;> rfl
  · intro members r hread
    split at hread
    · simp only [bind_eq_ok_iff] at hread
      obtain ⟨_, -, _, -, _, -, _, -, exclude, hexclude, include_, hinclude, fields, hread', hr⟩ :=
        hread
      cases hr
      exact ⟨hscope.yields _ exclude hexclude, hscope.yields _ include_ hinclude,
        hfields.yields _ fields hread'⟩
    · cases hread
  · intro r hr
    simp only [List.map_cons, List.map_nil, htext.restores _ trivial, hbool.restores _ trivial,
      hoptional.restores _ fun _ _ => trivial, hscope.restores _ hr.exclude,
      hscope.restores _ hr.include_, hfields.restores _ hr.fields]
    rfl
  · intro r
    simp only [List.forall_mem_cons]
    exact ⟨htext.lettered _, htext.lettered _, hoptional.lettered _, hbool.lettered _,
      hscope.lettered _, hscope.lettered _, hfields.lettered _, by simp⟩

theorem fitTogether_globals : FitTogether Globals.ofJson Globals.toJson fun _ => True := by
  have hoptional := MemberFits.optional fitTogether_text
  have htemplates := MemberFits.withDefault fitTogether_template.list [] (by simp)
  refine FitTogether.record globalKeys
    (fun g => [("regexEpressionBeforeElement", g.patternBefore.map .str),
      ("regexEpressionAfterElement", g.patternAfter.map .str),
      ("aroundCharReplaceObjectListOverride",
        some (.array (g.objectOverrides.map Template.toJson))),
      ("aroundCharReplaceFieldListOverride",
        some (.array (g.fieldOverrides.map Template.toJson)))])
    _ (fun v => rfl) ?_ (fun g => rfl) (by decide) (fun _ _ _ => trivial) ?_ ?_
  · rintro ⟨_ | _, _ | _, _, _⟩ <;> rfl
  · intro g _
    simp only [List.map_cons, List.map_nil, hoptional.restores _ fun _ _ => trivial,
      htemplates.restores _ fun _ _ => trivial]
    rfl
  · intro g
    simp only [List.forall_mem_cons]
    exact ⟨hoptional.lettered _, hoptional.lettered _, htemplates.lettered _,
      htemplates.lettered _, by simp⟩

theorem fitTogether_deletedPrefix :
    FitTogether deletedPrefixOfJson (fun p => .obj [("prefixe", .str p)]) fun _ => True := by
  have htext := MemberFits.required fitTogether_text "prefixe"
  refine FitTogether.record ["prefixe"] (fun p => [("prefixe", some (.str p))])
    _ (fun v => rfl) (fun p => rfl) (fun p => rfl) (by decide) (fun _ _ _ => trivial)
    (fun p _ => rfl) ?_
  intro p
  simp only [List.forall_mem_cons]
  exact ⟨htext.lettered p, by simp⟩

/-- The scope lists of a map are all as a reader gives them. -/
def RenameMap.IsSorted (m : RenameMap) : Prop :=
  ∀ object ∈ m.objects, object.IsSorted

/-- Maps are read as they were written. -/
theorem fitTogether_renameMap :
    FitTogether RenameMap.ofJson RenameMap.toJson RenameMap.IsSorted := by
  have hobjects := MemberFits.withDefault fitTogether_object.list [] (by simp)
  have hprefix := MemberFits.optional fitTogether_deletedPrefix
  have hoptional := MemberFits.optional fitTogether_text
  have hglobals := MemberFits.withDefault fitTogether_globals {} trivial
  refine FitTogether.record mapKeys
    (fun m => [("objects", some (.array (m.objects.map ObjectRename.toJson))),
      ("objectToDelete", m.deletedPrefix.map fun p => .obj [("prefixe", .str p)]),
      ("sfdxProjectFolder", m.projectFolder.map .str), ("globalConfig", some m.globals.toJson)])
    _ (fun v => rfl) ?_ (fun m => rfl) (by decide) ?_ ?_ ?_
  · rintro ⟨_, _ | _, _ | _, _⟩ <;> rfl
  · intro members m hread
    split at hread
    · simp only [bind_eq_ok_iff] at hread
      obtain ⟨objects, hread', _, -, _, -, _, -, hm⟩ := hread
      cases hm
      exact hobjects.yields _ objects hread'
    · cases hread
  · intro m hm
    simp only [List.map_cons, List.map_nil, hobjects.restores _ hm,
      hprefix.restores _ fun _ _ => trivial, hoptional.restores _ fun _ _ => trivial,
      hglobals.restores _ trivial]
    rfl
  · intro m
    simp only [List.forall_mem_cons]
    exact ⟨hobjects.lettered _, hprefix.lettered _, hoptional.lettered _, hglobals.lettered _,
      by simp⟩

/-- A map that was read from a document. -/
theorem RenameMap.parse_eq_ok_iff (document origin : String) (m : RenameMap) :
    RenameMap.parse document origin = .ok m ↔
      (∃ v, Json.parse document = .ok v ∧ RenameMap.ofJson v = .ok m) ∧ m.validate = .ok () := by
  rw [RenameMap.parse, ← bind_eq_ok_iff]
  cases Json.parse document >>= RenameMap.ofJson with
  | error fault => simp
  | ok m' =>
      simp only [Except.ok.injEq]
      cases hvalid : m'.validate with
      | error cause =>
          simp only [reduceCtorEq, false_iff, not_and]
          rintro rfl hvalid'
          rw [hvalid] at hvalid'
          cases hvalid'
      | ok _ =>
          simp only [Except.ok.injEq]
          exact ⟨fun heq => ⟨heq, heq ▸ hvalid⟩, fun heq => heq.1⟩

/-- A map that was read is read again from its own text, in either layout. -/
theorem RenameMap.parse_render_of_parse (document origin : String) (m : RenameMap)
    (h : RenameMap.parse document origin = .ok m) (origin' : String) :
    RenameMap.parse m.render origin' = .ok m ∧
      RenameMap.parse m.toJson.indented origin' = .ok m := by
  obtain ⟨⟨v, -, hread⟩, hvalid⟩ := (RenameMap.parse_eq_ok_iff document origin m).mp h
  have hrestored := fitTogether_renameMap.restores m (fitTogether_renameMap.yields v m hread)
  have hlettered := fitTogether_renameMap.lettered m
  constructor
  · exact (RenameMap.parse_eq_ok_iff _ _ m).mpr
      ⟨⟨m.toJson, Json.parse_compact m.toJson hlettered, hrestored⟩, hvalid⟩
  · exact (RenameMap.parse_eq_ok_iff _ _ m).mpr
      ⟨⟨m.toJson, Json.parse_indented m.toJson hlettered, hrestored⟩, hvalid⟩

/-- A document with its records as arrays, a repeated extension and a character
    that has to be escaped. -/
def oddDocument : String :=
  "[[[\"L\",\"N\\u0001\",null,true,\x7b\"b\":[],\"a\":[\"x\"],\"b\":[\"y\"]\x7d]]]"

/-- The map behind that document. -/
def oddMap : RenameMap :=
  { objects := [
      { previousObject := "L"
        newObject := "N\x01"
        caseSensitive := true
        exclude := some { byExtension := [("a", ["x"]), ("b", ["y"])] } }] }

theorem parse_render_of_parse_odd :
    RenameMap.parse oddDocument "map.json" = .ok oddMap ∧
      RenameMap.parse oddMap.render "copy.json" = .ok oddMap := by
  have hread : (RenameMap.parse oddDocument "map.json").toOption = some oddMap := by
    decide +kernel
  have hparse : RenameMap.parse oddDocument "map.json" = .ok oddMap := by
    cases hresult : RenameMap.parse oddDocument "map.json" with
    | error e =>
        rw [hresult] at hread
        cases hread
    | ok m =>
        rw [hresult] at hread
        rw [Option.some.inj hread]
  have hagain := RenameMap.parse_render_of_parse oddDocument "map.json" oddMap hparse "copy.json"
  exact ⟨hparse, hagain.1⟩

end SchemaRename
