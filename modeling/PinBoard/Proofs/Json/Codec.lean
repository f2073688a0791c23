import Mathlib.Logic.Equiv.Defs
import PinBoard.Proofs.Json.Number
import PinBoard.Proofs.Json.Record
import PinBoard.Proofs.Json.Write

/-!
# Values that are read back

A writer and a reader agree when whatever is written is read back. A field of a record may also be
left out, as long as the reader takes its value where the key is missing; a record agrees as soon
as each of its fields does.
-/

namespace PinBoard.Json

/-! ## Values -/

/-- What is written has a text, is not mistaken for a value that is missing, and is read back. -/
structure Restores {α : Type} (d : Decoder α) (w : α → Tree) : Prop where
  isWritable : ∀ a, (w a).IsWritable
  ne_null : ∀ a, w a ≠ .null
  read : ∀ a, d (w a) = .ok a

/-- A string is read back. -/
theorem restores_text : Restores text .ofString where
  isWritable s := ⟨s, rfl⟩
  ne_null s h := by simp [Tree.ofString] at h
  read s := rfl

/-- An integer is read back by whatever reads the integers that are written. -/
theorem restores_ofInt {α : Type} {d : Decoder α} {value : α → Int}
    (h : ∀ a, d (.ofInt (value a)) = .ok a) : Restores d fun a => .ofInt (value a) where
  isWritable a := ⟨value a, rfl⟩
  ne_null a h := by simp [Tree.ofInt] at h
  read a := h a

/-- A value that is there is read as one. -/
theorem optional_of_ne_null {α : Type} (d : Decoder α) {t : Tree} (h : t ≠ .null) :
    optional d t = (d t).map some := by
  cases t with
  | null => exact absurd rfl h
  | bool _ | number _ | string _ | array _ | object _ | broken _ => rfl

section Composite

variable {α : Type} {d : Decoder α} {w : α → Tree} (h : Restores d w)
include h

/-- A value that was written is read as one that is there. -/
theorem Restores.optional (a : α) : optional d (w a) = .ok (some a) := by
  rw [optional_of_ne_null d (h.ne_null a), h.read a]
  rfl

/-- Items are read back one by one. -/
theorem Restores.items (as : List α) :
    (Items.ofList (as.map w)).IsWritable ∧ Json.items d (.ofList (as.map w)) = .ok as := by
  induction as with
  | nil => exact ⟨trivial, rfl⟩
  | cons a as ih =>
    refine ⟨⟨h.isWritable a, ih.1⟩, ?_⟩
    rw [List.map_cons, Items.ofList, Json.items, h.read a, ok_bind, ih.2]
    rfl

/-- A list is read back. -/
theorem Restores.list : Restores (list d) fun as => .ofList (as.map w) where
  isWritable as := (h.items as).1
  ne_null as hnull := by simp [Tree.ofList] at hnull
  read as := (h.items as).2

end Composite

/-! ## Fields -/

/-- A field that is read back: what is written of it is read as its value, and where it is left out
its value is the one that is taken for a missing key. -/
structure RestoresField {α : Type} (d : Decoder α) (absent : Option α) (w : α → Option Tree) :
    Prop where
  isWritable : ∀ {a t}, w a = some t → t.IsWritable
  read : ∀ {a t}, w a = some t → d t = .ok a
  leftOut : ∀ {a}, w a = none → absent = some a

section Fields

variable {α : Type} {d : Decoder α} {w : α → Tree} (h : Restores d w)
include h

/-- A field that is always written. -/
theorem Restores.always (absent : Option α) : RestoresField d absent fun a => some (w a) where
  isWritable hw := by
    rw [← Option.some.inj hw]
    exact h.isWritable _
  read hw := by
    rw [← Option.some.inj hw]
    exact h.read _
  leftOut hw := absurd hw (by simp)

/-- A field of which a missing value is written as such. -/
theorem Restores.orNull (absent : Option (Option α)) :
    RestoresField (Json.optional d) absent fun o => some (.ofOption w o) where
  isWritable {o t} hw := by
    rw [← Option.some.inj hw]
    cases o with
    | none => exact trivial
    | some a => exact h.isWritable a
  read {o t} hw := by
    rw [← Option.some.inj hw]
    cases o with
    | none => rfl
    | some a => exact h.optional a
  leftOut hw := absurd hw (by simp)

/-- A field that is left out when its value is missing. -/
theorem Restores.orLeftOut : RestoresField (Json.optional d) (some none) (Option.map w) where
  isWritable {o t} hw := by
    obtain ⟨a, -, rfl⟩ := Option.map_eq_some_iff.mp hw
    exact h.isWritable a
  read {o t} hw := by
    obtain ⟨a, rfl, rfl⟩ := Option.map_eq_some_iff.mp hw
    exact h.optional a
  leftOut hw := by rw [Option.map_eq_none_iff.mp hw]

/-- A list that is left out when it is empty. -/
theorem Restores.listOrLeftOut : RestoresField (Json.list d) (some []) fun as =>
    if as.isEmpty then none else some (.ofList (as.map w)) where
  isWritable {as t} hw := by
    split at hw
    · exact absurd hw (by simp)
    · rw [← Option.some.inj hw]
      exact h.list.isWritable as
  read {as t} hw := by
    split at hw
    · exact absurd hw (by simp)
    · rw [← Option.some.inj hw]
      exact h.list.read as
  leftOut {as} hw := by
    split at hw
    · rename_i hempty
      rw [List.isEmpty_iff.mp hempty]
    · exact absurd hw (by simp)

end Fields

/-! ## Records -/

/-- A type whose values are the records of a schema. -/
structure Layout (α : Type) where
  schema : Schema
  fields : α ≃ schema.Record
  keysDiffer : schema.KeysDiffer
  nodup : schema.fields.Nodup
  pass_eq : schema.pass = skip

namespace Layout

variable {α : Type} (L : Layout α) (w : (f : L.schema.Field) → L.schema.Value f → Option Tree)

/-- Reads a record as a value of the type. -/
def decode : Decoder α := fun tree => (L.schema.read tree).map L.fields.symm

/-- The member that is written of a field. -/
def member (a : α) (f : L.schema.Field) : List (String × Tree) :=
  member? (L.schema.key f) id (w f (L.fields a f))

/-- The members that are written of a value. -/
def members (a : α) : List (String × Tree) := L.schema.fields.flatMap (L.member w a)

variable {w} {a : α}

theorem decode_eq_ok_iff {t : Tree} :
    L.decode t = .ok a ↔ L.schema.read t = .ok (L.fields a) := by
  rw [decode, map_eq_ok_iff]
  constructor
  · rintro ⟨r, hr, rfl⟩
    rw [hr, Equiv.apply_symm_apply]
  · intro h
    exact ⟨_, h, L.fields.symm_apply_apply a⟩

theorem mem_member {f : L.schema.Field} {m : String × Tree} :
    m ∈ L.member w a f ↔ m.1 = L.schema.key f ∧ w f (L.fields a f) = some m.2 := by
  rw [member]
  cases w f (L.fields a f) with
  | none => simp [member?]
  | some t => simp [member?, Prod.ext_iff, eq_comm]

theorem mem_members {m : String × Tree} :
    m ∈ L.members w a ↔ ∃ f, m.1 = L.schema.key f ∧ w f (L.fields a f) = some m.2 := by
  rw [members, List.mem_flatMap]
  refine exists_congr fun f => ?_
  rw [mem_member]
  exact and_iff_right (L.schema.mem_fields f)

/-- The keys of what is written are keys of the schema, in the order of its fields. -/
theorem keys_sublist (fs : List L.schema.Field) :
    ((fs.flatMap (L.member w a)).map (·.1)).Sublist (fs.map L.schema.key) := by
  induction fs with
  | nil => exact List.Sublist.slnil
  | cons f fs ih =>
    rw [List.flatMap_cons, List.map_append, List.map_cons]
    rw [member]
    cases w f (L.fields a f) with
    | none => exact ih.cons _
    | some t => exact ih.cons_cons _

theorem knownOnce_members : L.schema.KnownOnce (L.members w a) := by
  have hkeys : (L.schema.fields.map L.schema.key).Nodup := L.nodup.map L.keysDiffer.injective
  exact Schema.knownOnce_of_nodup (hkeys.sublist (L.keys_sublist _))

/-- A field that is written is found, one that is left out is not. -/
theorem lookup_members (f : L.schema.Field) :
    (L.members w a).lookup (L.schema.key f) = w f (L.fields a f) := by
  cases hw : w f (L.fields a f) with
  | none =>
    -- a member of this key would have been written of this field, since keys differ
    refine lookup_eq_none_iff.mpr fun hmem => ?_
    obtain ⟨m, hm, hkey⟩ := List.mem_map.mp hmem
    obtain ⟨g, hg, hwritten⟩ := L.mem_members.mp hm
    obtain rfl : f = g := L.keysDiffer.injective (hkey.symm.trans hg)
    rw [hw] at hwritten
    exact absurd hwritten (by simp)
  | some t =>
    have hmem : (L.schema.key f, t) ∈ L.members w a := L.mem_members.mpr ⟨f, rfl, hw⟩
    exact L.knownOnce_members.lookup_of_mem hmem rfl

theorem isWritable_ofMembers {ms : List (String × Tree)} (h : ∀ m ∈ ms, m.2.IsWritable) :
    (Tree.ofMembers ms).IsWritable := by
  induction ms with
  | nil => exact trivial
  | cons m ms ih =>
    have hrest := ih fun n hn => h n (List.mem_cons_of_mem _ hn)
    exact ⟨⟨m.1, rfl⟩, h m List.mem_cons_self, hrest⟩

/-- **Round trip of records.**  A record is read back as soon as each of its fields is. -/
theorem restores
    (hfields : ∀ f, RestoresField (L.schema.decode f) (L.schema.absent f) (w f)) :
    Restores L.decode fun a => .ofMembers (L.members w a) where
  isWritable a := isWritable_ofMembers fun m hm => by
    obtain ⟨f, -, hwritten⟩ := L.mem_members.mp hm
    exact (hfields f).isWritable hwritten
  ne_null a h := by simp [Tree.ofMembers] at h
  read a := by
    refine L.decode_eq_ok_iff.mpr
      (Schema.read_ofMembers L.keysDiffer L.knownOnce_members (fun m hm hunknown => ?_) fun f => ?_)
    -- there is nothing to pass over
    · obtain ⟨f, hf, -⟩ := L.mem_members.mp hm
      rw [hf, L.keysDiffer f] at hunknown
      exact absurd hunknown (by simp)
    · rw [Schema.Finds, Takes, L.lookup_members]
      cases hw : w f (L.fields a f) with
      | none => exact Or.inr ⟨rfl, (hfields f).leftOut hw⟩
      | some t => exact Or.inl ⟨t, rfl, (hfields f).read hw⟩

end Layout

end PinBoard.Json
