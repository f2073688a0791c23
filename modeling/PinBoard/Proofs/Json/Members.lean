import PinBoard.Proofs.Json.Codec

/-!
# Objects, member by member

What a record is read as from the text of an object depends on the members of its own keys, and on
nothing else in the text: not on the order of the members, not on others among them, and not on how
keys and strings are spelled.
-/

namespace PinBoard.Json

/-! ## Values that nobody asked for -/

mutual

/-- A whole value can be passed over. -/
theorem skip_of_isWhole (t : Tree) (h : t.IsWhole) : skip t = .ok () := by
  cases t with
  | null | bool _ | number _ | string _ => rfl
  | array is => exact skipItems_of_isWhole is h
  | object ms => exact skipMembers_of_isWhole ms h
  | broken _ =>
    rw [Tree.IsWhole] at h
    exact h.elim

theorem skipItems_of_isWhole (is : Items) (h : is.IsWhole) : skipItems is = .ok () := by
  cases is with
  | closed => rfl
  | cons item rest =>
    rw [Items.IsWhole] at h
    rw [skipItems, skip_of_isWhole item h.1, ok_bind, skipItems_of_isWhole rest h.2]
  | ended | foreign | comma =>
    rw [Items.IsWhole] at h
    exact h.elim

theorem skipMembers_of_isWhole (ms : Members) (h : ms.IsWhole) : skipMembers ms = .ok () := by
  cases ms with
  | closed => rfl
  | cons key value rest =>
    rw [Members.IsWhole] at h
    rw [skipMembers, skip_of_isWhole value h.1, ok_bind, skipMembers_of_isWhole rest h.2]
  | ended | foreign | comma | commaEnded | noKey _ =>
    rw [Members.IsWhole] at h
    exact h.elim

end

/-- The values in a whole object are whole. -/
theorem isWhole_of_mem {ms : List (String × Tree)} (h : (Tree.ofMembers ms).IsWhole)
    {m : String × Tree} (hm : m ∈ ms) : m.2.IsWhole := by
  induction ms with
  | nil => exact absurd hm List.not_mem_nil
  | cons n rest ih =>
    obtain ⟨hvalue, hrest⟩ := h
    rcases List.mem_cons.mp hm with rfl | hm
    · exact hvalue
    · exact ih hrest hm

/-! ## The members of a record -/

/-- Something is taken if what stands behind the key can be read, or the key may be missing and
is. -/
theorem exists_takes_iff {α : Type} {ms : List (String × Tree)} {key : String} {d : Decoder α}
    {otherwise : Option α} :
    (∃ v, Takes ms key d otherwise v) ↔
      (otherwise = none → key ∈ ms.map (·.1)) ∧
        ∀ t, ms.lookup key = some t → ∃ v, d t = .ok v := by
  unfold Takes
  cases hfound : ms.lookup key with
  | none =>
    have hmissing : key ∉ ms.map (·.1) := lookup_eq_none_iff.mp hfound
    cases otherwise with
    | none => simpa using hmissing
    | some v => simp
  | some t =>
    have hthere : key ∈ ms.map (·.1) := by
      by_contra hmissing
      rw [lookup_eq_none_iff.mpr hmissing] at hfound
      exact absurd hfound (by simp)
    simp only [Option.some.injEq, exists_eq_left', reduceCtorEq, false_and, or_false, hthere,
      implies_true, true_and, forall_eq']

namespace Schema

variable {S : Schema} {ms ms' : List (String × Tree)}

/-- The members whose keys are known. -/
def known (S : Schema) (ms : List (String × Tree)) : List (String × Tree) :=
  ms.filter fun m => (S.field? m.1).isSome

/-- The keys that have to be there. -/
def required (S : Schema) : List String :=
  (S.fields.filter fun f => (S.absent f).isNone).map S.key

theorem mem_required {key : String} :
    key ∈ S.required ↔ ∃ f, S.key f = key ∧ S.absent f = none := by
  rw [required, List.mem_map]
  refine exists_congr fun f => ?_
  rw [List.mem_filter, and_iff_right (S.mem_fields f), Option.isNone_iff_eq_none, and_comm]

/-- The same known keys are there, and what stands behind each is read alike. -/
def Alike (S : Schema) (ms ms' : List (String × Tree)) : Prop :=
  ∀ f, Option.Rel (fun t t' => ∀ v, S.decode f t = .ok v ↔ S.decode f t' = .ok v)
    (ms.lookup (S.key f)) (ms'.lookup (S.key f))

/-- Where the members are alike the fields find the same. -/
theorem Alike.finds_iff (h : S.Alike ms ms') (f : S.Field) (v : S.Value f) :
    S.Finds ms f v ↔ S.Finds ms' f v := by
  have hf := h f
  unfold Finds Takes
  cases hms : ms.lookup (S.key f) with
  | none =>
    cases hms' : ms'.lookup (S.key f) with
    | none => exact Iff.rfl
    | some t' =>
      rw [hms, hms'] at hf
      exact nomatch hf
  | some t =>
    cases hms' : ms'.lookup (S.key f) with
    | none =>
      rw [hms, hms'] at hf
      exact nomatch hf
    | some t' =>
      rw [hms, hms'] at hf
      obtain ⟨hread⟩ := hf
      simp [hread]

/-- A key that is known occurs as often among the known members as among all. -/
theorem count_known (hkeys : S.KeysDiffer) (f : S.Field) (ms : List (String × Tree)) :
    ((S.known ms).map (·.1)).count (S.key f) = (ms.map (·.1)).count (S.key f) := by
  induction ms with
  | nil => rfl
  | cons m rest ih =>
    rw [List.map_cons, List.count_cons, known, List.filter_cons]
    by_cases heq : m.1 = S.key f
    · have hknown : (S.field? m.1).isSome = true := by rw [heq, hkeys f]; rfl
      rw [if_pos hknown, List.map_cons, List.count_cons]
      exact congrArg (· + _) ih
    · rw [beq_false_of_ne heq]
      split
      · rw [List.map_cons, List.count_cons, beq_false_of_ne heq]
        exact ih
      · exact ih

/-- Members with the same known ones among them repeat known keys alike. -/
theorem KnownOnce.of_perm (hkeys : S.KeysDiffer) (h : (S.known ms).Perm (S.known ms'))
    (hknown : S.KnownOnce ms) : S.KnownOnce ms' := by
  intro f
  rw [← count_known hkeys, ← (h.map (·.1)).count_eq, count_known hkeys]
  exact hknown f

/-- Among members that repeat no known key, what a known key finds is what stands behind it. -/
theorem KnownOnce.lookup_eq_some_iff (hkeys : S.KeysDiffer) (h : S.KnownOnce ms) {f : S.Field}
    {t : Tree} : ms.lookup (S.key f) = some t ↔ (S.key f, t) ∈ S.known ms := by
  have hmem : (S.key f, t) ∈ S.known ms ↔ (S.key f, t) ∈ ms := by
    rw [known, List.mem_filter, hkeys f]
    exact and_iff_left rfl
  rw [hmem]
  constructor
  · intro hfound
    obtain ⟨before, behind, rfl, -⟩ := List.lookup_eq_some_iff.mp hfound
    exact List.mem_append_right before List.mem_cons_self
  · intro hm
    exact h.lookup_of_mem hm rfl

/-- Neither the order of the members nor those that are not known make a difference. -/
theorem alike_of_perm (hkeys : S.KeysDiffer) (h : (S.known ms).Perm (S.known ms'))
    (hknown : S.KnownOnce ms) : S.Alike ms ms' := by
  intro f
  have hsame : ms.lookup (S.key f) = ms'.lookup (S.key f) := by
    refine Option.ext fun t => ?_
    rw [hknown.lookup_eq_some_iff hkeys, (hknown.of_perm hkeys h).lookup_eq_some_iff hkeys,
      h.mem_iff]
  rw [hsame]
  cases ms'.lookup (S.key f) with
  | none => exact .none
  | some t => exact .some fun v => Iff.rfl

/-- Without one of its members an object finds nothing of that member's key, and of the other keys
what it found before. -/
theorem KnownOnce.finds_without {ms₁ ms₂ : List (String × Tree)} {m : String × Tree}
    (h : S.KnownOnce (ms₁ ++ m :: ms₂)) (f : S.Field) {v : S.Value f}
    (hv : S.Finds (ms₁ ++ m :: ms₂) f v) :
    (S.key f = m.1 → (ms₁ ++ ms₂).lookup (S.key f) = none) ∧
      (S.key f ≠ m.1 → S.Finds (ms₁ ++ ms₂) f v) := by
  constructor
  -- if its key were still there it would have been there twice
  · intro heq
    refine lookup_eq_none_iff.mpr fun hmem => ?_
    have hcount := h f
    have hagain := List.count_pos_iff.mpr hmem
    rw [List.map_append, List.count_append] at hagain
    rw [List.map_append, List.count_append, List.map_cons, List.count_cons, heq,
      beq_self_eq_true, if_pos rfl, ← heq] at hcount
    omega
  · intro hne
    have hsame : (ms₁ ++ m :: ms₂).lookup (S.key f) = (ms₁ ++ ms₂).lookup (S.key f) := by
      rw [List.lookup_append, List.lookup_append, List.lookup_cons, beq_false_of_ne hne]
    rw [Finds, Takes, hsame] at hv
    exact hv

/-- Fewer members repeat no more keys. -/
theorem KnownOnce.sublist (h : S.KnownOnce ms) (hsub : ms'.Sublist ms) : S.KnownOnce ms' :=
  fun f => Nat.le_trans ((hsub.map (·.1)).count_le (S.key f)) (h f)

end Schema

/-! ## Texts of objects -/

namespace Layout

variable {α : Type} (L : Layout α) {ms ms' : List (String × Tree)} {s s' : String} {a : α}

/-- What the tree of an object is read as. -/
theorem decode_ofMembers_eq_ok_iff (hwhole : (Tree.ofMembers ms).IsWhole) :
    L.decode (.ofMembers ms) = .ok a ↔
      L.schema.KnownOnce ms ∧ ∀ f, L.schema.Finds ms f (L.fields a f) := by
  rw [L.decode_eq_ok_iff]
  refine Schema.read_ofMembers_iff L.keysDiffer fun m hm _ => ?_
  rw [L.pass_eq]
  exact skip_of_isWhole m.2 (isWhole_of_mem hwhole hm)

/-- **What the text of an object is read as.** -/
theorem ofString_eq_ok_iff (htext : (Tree.ofMembers ms).IsText s.toList) :
    ofString L.decode s = .ok a ↔
      L.schema.KnownOnce ms ∧ ∀ f, L.schema.Finds ms f (L.fields a f) := by
  rw [ofString_text L.decode htext]
  exact L.decode_ofMembers_eq_ok_iff htext.1

/-- A text is read at all if each field finds a value. -/
theorem exists_ofString_eq_ok_iff (htext : (Tree.ofMembers ms).IsText s.toList)
    (hknown : L.schema.KnownOnce ms) :
    (∃ a, ofString L.decode s = .ok a) ↔ ∀ f, ∃ v, L.schema.Finds ms f v := by
  constructor
  · rintro ⟨a, ha⟩ f
    exact ⟨L.fields a f, ((L.ofString_eq_ok_iff htext).mp ha).2 f⟩
  · intro h
    choose r hr using h
    refine ⟨L.fields.symm r, (L.ofString_eq_ok_iff htext).mpr ⟨hknown, fun f => ?_⟩⟩
    rw [Equiv.apply_symm_apply]
    exact hr f

/-- Objects whose members are alike are read alike. -/
theorem decode_congr (hwhole : (Tree.ofMembers ms).IsWhole)
    (hwhole' : (Tree.ofMembers ms').IsWhole) (hknown : L.schema.KnownOnce ms)
    (hknown' : L.schema.KnownOnce ms') (h : L.schema.Alike ms ms') (a : α) :
    L.decode (.ofMembers ms) = .ok a ↔ L.decode (.ofMembers ms') = .ok a := by
  rw [L.decode_ofMembers_eq_ok_iff hwhole, L.decode_ofMembers_eq_ok_iff hwhole',
    and_iff_right hknown, and_iff_right hknown']
  exact forall_congr' fun f => h.finds_iff f _

/-- **Less is read too.**  Where no field has to be there, an object without one of its members is
read as well, with the field of that member as it is without it. -/
theorem ofString_without {ms₁ ms₂ : List (String × Tree)} {m : String × Tree} {b : α}
    (htext : (Tree.ofMembers (ms₁ ++ m :: ms₂)).IsText s.toList)
    (htext' : (Tree.ofMembers (ms₁ ++ ms₂)).IsText s'.toList)
    (ha : ofString L.decode s = .ok a)
    (hsame : ∀ f, L.schema.key f ≠ m.1 → L.fields b f = L.fields a f)
    (hreset : ∀ f, L.schema.key f = m.1 → L.schema.absent f = some (L.fields b f)) :
    ofString L.decode s' = .ok b := by
  obtain ⟨hknown, hfinds⟩ := (L.ofString_eq_ok_iff htext).mp ha
  have hless : (ms₁ ++ ms₂).Sublist (ms₁ ++ m :: ms₂) :=
    (List.Sublist.refl ms₁).append (List.sublist_cons_self m ms₂)
  refine (L.ofString_eq_ok_iff htext').mpr ⟨hknown.sublist hless, fun f => ?_⟩
  have hwithout := hknown.finds_without f (hfinds f)
  by_cases hkey : L.schema.key f = m.1
  · exact Or.inr ⟨hwithout.1 hkey, hreset f hkey⟩
  · rw [hsame f hkey]
    exact hwithout.2 hkey

end Layout

end PinBoard.Json
