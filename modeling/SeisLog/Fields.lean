/-!
# Named fields

Names with values in order of first appearance. Setting a name again keeps its place and replaces
its value, so `get? (set fields name value) name = some value` and other names are untouched.
-/

namespace SeisLog

abbrev Fields (α : Type) := List (String × α)

namespace Fields

variable {α : Type}

def names (fields : Fields α) : List String := fields.map Prod.fst

def get? (fields : Fields α) (name : String) : Option α := fields.lookup name

def set (fields : Fields α) (name : String) (value : α) : Fields α :=
  match fields with
  | [] => [(name, value)]
  | (other, old) :: rest =>
      if other = name then (name, value) :: rest else (other, old) :: set rest name value

def setAll (fields updates : Fields α) : Fields α :=
  updates.foldl (fun fields (name, value) => fields.set name value) fields

@[simp] theorem get?_set_self (fields : Fields α) (name : String) (value : α) :
    (fields.set name value).get? name = some value := by
  induction fields with
  | nil => simp [set, get?]
  | cons field rest ih =>
      obtain ⟨key, old⟩ := field
      by_cases h : key = name
      · simp [set, get?, h]
      · have hn : (name == key) = false := by simpa using fun he : name = key => h he.symm
        simpa [set, get?, h, List.lookup_cons, hn] using ih

theorem get?_set_of_ne {fields : Fields α} {name other : String} (value : α)
    (h : other ≠ name) : (fields.set name value).get? other = fields.get? other := by
  have hm : (other == name) = false := by simpa using h
  induction fields with
  | nil => simp [set, get?, List.lookup_cons, hm]
  | cons field rest ih =>
      obtain ⟨key, old⟩ := field
      by_cases hf : key = name
      · simp [set, get?, hf, List.lookup_cons, hm]
      · simp only [set, get?, hf, if_false, List.lookup_cons]
        cases other == key
        · exact ih
        · rfl

/-- A new name goes to the end. -/
theorem set_of_not_mem {fields : Fields α} {name : String} (h : name ∉ fields.names) (value : α) :
    fields.set name value = fields ++ [(name, value)] := by
  induction fields with
  | nil => rfl
  | cons field rest ih =>
      obtain ⟨key, old⟩ := field
      rw [names, List.map_cons, List.mem_cons, not_or] at h
      rw [set, if_neg (Ne.symm h.1), ih h.2]
      rfl

theorem setAll_append (fields first second : Fields α) :
    fields.setAll (first ++ second) = (fields.setAll first).setAll second := by
  simp [setAll]

section

variable {fields updates : Fields α} {name : String}

theorem names_set (fields : Fields α) (name : String) (value : α) :
    (fields.set name value).names =
      if name ∈ fields.names then fields.names else fields.names ++ [name] := by
  induction fields with
  | nil => rfl
  | cons field rest ih =>
      obtain ⟨other, old⟩ := field
      by_cases h : other = name
      · simp [set, names, h]
      · rw [set, if_neg h]
        show other :: names (set rest name value) =
          if name ∈ other :: names rest then other :: names rest
          else other :: (names rest ++ [name])
        rw [ih]
        by_cases hmem : name ∈ names rest
        · rw [if_pos hmem, if_pos (List.mem_cons_of_mem _ hmem)]
        · rw [if_neg hmem, if_neg (List.not_mem_cons_of_ne_of_not_mem (Ne.symm h) hmem)]

/-- New names go to the end, in their order. -/
theorem names_setAll (h : updates.names.Nodup) :
    (fields.setAll updates).names =
      fields.names ++ updates.names.filter (· ∉ fields.names) := by
  induction updates generalizing fields with
  | nil => simp [setAll, names]
  | cons update updates ih =>
      obtain ⟨name, value⟩ := update
      obtain ⟨hname, hnodup⟩ := List.nodup_cons.mp h
      show ((fields.set name value).setAll updates).names = _
      rw [ih hnodup, names_set]
      show _ = fields.names ++ (name :: names updates).filter (· ∉ fields.names)
      split
      · rename_i hmem
        rw [List.filter_cons_of_neg (by simpa using hmem)]
      · rename_i hmem
        have hothers : (names updates).filter (· ∉ fields.names ++ [name]) =
            (names updates).filter (· ∉ fields.names) := by
          apply List.filter_congr
          intro other hother
          have hne : other ≠ name := fun he => hname (he ▸ hother)
          simp [hne]
        rw [List.filter_cons_of_pos (by simpa using hmem), hothers, List.append_assoc]
        rfl

theorem get?_setAll_of_not_mem (h : name ∉ updates.names) :
    (fields.setAll updates).get? name = fields.get? name := by
  induction updates generalizing fields with
  | nil => rfl
  | cons update updates ih =>
      obtain ⟨hne, hrest⟩ := not_or.mp fun hmem => h (List.mem_cons.mpr hmem)
      show ((fields.set update.1 update.2).setAll updates).get? name = _
      rw [ih hrest, get?_set_of_ne update.2 hne]

theorem get?_setAll_of_mem (h : updates.names.Nodup) {value : α} (hmem : (name, value) ∈ updates) :
    (fields.setAll updates).get? name = some value := by
  induction updates generalizing fields with
  | nil => cases hmem
  | cons update updates ih =>
      obtain ⟨hname, hnodup⟩ := List.nodup_cons.mp h
      show ((fields.set update.1 update.2).setAll updates).get? name = _
      rcases List.mem_cons.mp hmem with rfl | hmem
      · rw [get?_setAll_of_not_mem hname, get?_set_self]
      · exact ih hnodup hmem

theorem mem_of_mem_set {field : String × α} {value : α} (h : field ∈ fields.set name value) :
    field ∈ fields ∨ field = (name, value) := by
  induction fields with
  | nil => exact .inr (List.mem_singleton.mp h)
  | cons first rest ih =>
      unfold set at h
      split at h
      · rcases List.mem_cons.mp h with rfl | hrest
        · exact .inr rfl
        · exact .inl (List.mem_cons_of_mem _ hrest)
      · rcases List.mem_cons.mp h with rfl | hrest
        · exact .inl List.mem_cons_self
        · exact (ih hrest).imp_left (List.mem_cons_of_mem _)

theorem mem_of_mem_setAll {field : String × α} (h : field ∈ fields.setAll updates) :
    field ∈ fields ∨ field ∈ updates := by
  induction updates generalizing fields with
  | nil => exact .inl h
  | cons update updates ih =>
      rcases ih h with hset | hupdates
      · rcases mem_of_mem_set hset with hfields | rfl
        · exact .inl hfields
        · exact .inr List.mem_cons_self
      · exact .inr (List.mem_cons_of_mem _ hupdates)

theorem get?_of_not_mem (h : name ∉ fields.names) : fields.get? name = none := by
  induction fields with
  | nil => rfl
  | cons field rest ih =>
      obtain ⟨hne, hrest⟩ := not_or.mp fun hmem => h (List.mem_cons.mpr hmem)
      have hbeq : (name == field.1) = false := beq_eq_false_iff_ne.mpr hne
      rw [get?, List.lookup_cons, hbeq]
      exact ih hrest

theorem get?_of_mem (h : fields.names.Nodup) {value : α} (hmem : (name, value) ∈ fields) :
    fields.get? name = some value := by
  induction fields with
  | nil => cases hmem
  | cons field rest ih =>
      obtain ⟨hname, hnodup⟩ := List.nodup_cons.mp h
      rcases List.mem_cons.mp hmem with rfl | hmem
      · simp [get?]
      · have hne : name ≠ field.1 := fun he => hname (he ▸ List.mem_map_of_mem hmem)
        rw [get?, List.lookup_cons, beq_eq_false_iff_ne.mpr hne]
        exact ih hnodup hmem

theorem get?_setAll (h : updates.names.Nodup) :
    (fields.setAll updates).get? name = (updates.get? name).or (fields.get? name) := by
  by_cases hmem : name ∈ updates.names
  · obtain ⟨⟨_, value⟩, hupdate, rfl⟩ := List.mem_map.mp hmem
    rw [get?_setAll_of_mem h hupdate, get?_of_mem h hupdate]
    rfl
  · rw [get?_setAll_of_not_mem hmem, get?_of_not_mem hmem]
    rfl

theorem nodup_names_set (h : fields.names.Nodup) (value : α) :
    (fields.set name value).names.Nodup := by
  rw [names_set]
  split
  · exact h
  · rename_i hname
    refine List.nodup_append.mpr ⟨h, List.pairwise_singleton _ name, ?_⟩
    intro other hother last hlast he
    rw [List.mem_singleton.mp hlast] at he
    exact hname (he ▸ hother)

theorem nodup_names_setAll (h : fields.names.Nodup) : (fields.setAll updates).names.Nodup := by
  induction updates generalizing fields with
  | nil => exact h
  | cons update updates ih => exact ih (nodup_names_set h update.2)

theorem set_set_self (fields : Fields α) (name : String) (old value : α) :
    (fields.set name old).set name value = fields.set name value := by
  induction fields with
  | nil => simp [set]
  | cons field rest ih =>
      obtain ⟨key, kept⟩ := field
      by_cases h : key = name
      · simp [set, h]
      · simp [set, h, ih]

/-- A name that is there keeps its place, so it may be set later. -/
theorem set_set_of_mem {other : String} (h : name ∈ fields.names) (hne : other ≠ name)
    (value more : α) :
    (fields.set other more).set name value = (fields.set name value).set other more := by
  induction fields with
  | nil => cases h
  | cons field rest ih =>
      obtain ⟨key, kept⟩ := field
      by_cases hname : key = name
      · have hother : name ≠ other := Ne.symm hne
        subst hname
        simp [set, hother]
      · have hrest : name ∈ names rest := by
          rcases List.mem_cons.mp h with he | hrest
          · exact absurd he.symm hname
          · exact hrest
        by_cases hother : key = other
        · simp [set, hother, hne]
        · simp [set, hname, hother, ih hrest]

theorem mem_names_set (fields : Fields α) (name : String) (value : α) :
    name ∈ (fields.set name value).names := by
  rw [names_set]
  split
  · assumption
  · exact List.mem_append_right _ (List.mem_singleton_self name)

theorem setAll_set_of_mem (h : name ∈ fields.names) (hname : name ∉ updates.names) (value : α) :
    (fields.setAll updates).set name value = (fields.set name value).setAll updates := by
  induction updates generalizing fields with
  | nil => rfl
  | cons update updates ih =>
      obtain ⟨hne, hrest⟩ := not_or.mp fun hmem => hname (List.mem_cons.mpr hmem)
      have hkept : name ∈ (fields.set update.1 update.2).names := by
        rw [names_set]
        split
        · exact h
        · exact List.mem_append_left _ h
      show ((fields.set update.1 update.2).setAll updates).set name value =
        ((fields.set name value).set update.1 update.2).setAll updates
      rw [ih hkept hrest, set_set_of_mem h (Ne.symm hne)]

theorem setAll_set (h : updates.names.Nodup) (value : α) :
    fields.setAll (updates.set name value) = (fields.setAll updates).set name value := by
  induction updates generalizing fields with
  | nil => rfl
  | cons update updates ih =>
      obtain ⟨other, old⟩ := update
      obtain ⟨hother, hnodup⟩ := List.nodup_cons.mp h
      by_cases he : other = name
      · subst he
        rw [set, if_pos rfl]
        show (fields.set other value).setAll updates =
          ((fields.set other old).setAll updates).set other value
        rw [setAll_set_of_mem (mem_names_set fields other old) hother, set_set_self]
      · rw [set, if_neg he]
        exact ih hnodup

theorem setAll_setAll (h : updates.names.Nodup) (later : Fields α) :
    fields.setAll (updates.setAll later) = (fields.setAll updates).setAll later := by
  induction later generalizing updates with
  | nil => rfl
  | cons last later ih =>
      show fields.setAll ((updates.set last.1 last.2).setAll later) =
        ((fields.setAll updates).set last.1 last.2).setAll later
      rw [ih (nodup_names_set h last.2), setAll_set h]

theorem setAll_gathered (fields later : Fields α) :
    fields.setAll (setAll [] later) = fields.setAll later :=
  @setAll_setAll α fields [] List.Pairwise.nil later

theorem set_of_get? {value : α} (h : fields.get? name = some value) :
    fields.set name value = fields := by
  induction fields with
  | nil => cases h
  | cons field rest ih =>
      obtain ⟨key, old⟩ := field
      by_cases hk : key = name
      · subst hk
        have hold : old = value := by simpa [get?] using h
        rw [set, if_pos rfl, hold]
      · have hbeq : (name == key) = false := beq_eq_false_iff_ne.mpr (Ne.symm hk)
        rw [get?, List.lookup_cons, hbeq] at h
        rw [set, if_neg hk, ih h]

/-- Updates that say nothing new change nothing. -/
theorem setAll_of_get? (h : ∀ update ∈ updates, fields.get? update.1 = some update.2) :
    fields.setAll updates = fields := by
  induction updates with
  | nil => rfl
  | cons update updates ih =>
      obtain ⟨hfirst, hrest⟩ := List.forall_mem_cons.mp h
      show (fields.set update.1 update.2).setAll updates = fields
      rw [set_of_get? hfirst, ih hrest]

theorem setAll_self (h : fields.names.Nodup) : fields.setAll fields = fields :=
  setAll_of_get? fun _ hfield => get?_of_mem h hfield

end

end Fields

end SeisLog
