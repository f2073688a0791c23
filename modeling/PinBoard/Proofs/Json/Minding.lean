import PinBoard.Proofs.Json.Codec
import PinBoard.Proofs.Json.Names
import PinBoard.Proofs.Json.Reading

/-!
# Readers that mind the grammar

A reader that gives a value for whole trees only reads the texts of trees and no others, so all that
it accepts is told by what it makes of trees. Readers of leaves mind the grammar, and readers that
are put together from such readers do so too, whether or not they ask for every part of a
tree. What a reader reads is then told by a relation between trees and values.
-/

namespace PinBoard.Json

/-- A reader that gives a value for whole trees only. -/
def MindsGrammar {α : Type} (d : Decoder α) : Prop := ∀ t a, d t = .ok a → t.IsWhole

/-- **What is read of a string** is read of a tree of which it is a text. -/
theorem ofString_eq_ok_iff_isText {α : Type} {d : Decoder α} (hd : MindsGrammar d) {s : String}
    {a : α} : ofString d s = .ok a ↔ ∃ t, t.IsText s.toList ∧ d t = .ok a := by
  constructor
  · intro h
    rw [ofString, Source.ofString, Document.decode] at h
    obtain ⟨value, hvalue, h⟩ := bind_eq_ok_iff.mp h
    obtain ⟨hfollowed, h⟩ := refuse_eq_ok_iff.mp h
    generalize hdocument : Document.ofSource (s.toList.map some) = document at hvalue hfollowed
    obtain ⟨t, followed⟩ := document
    obtain rfl : followed = false := by simpa using hfollowed
    rw [Except.ok.inj h] at hvalue
    exact ⟨t, Document.isText_of_ofSource (hd t a hvalue) hdocument, hvalue⟩
  · rintro ⟨t, htext, ha⟩
    rw [ofString_text d htext]
    exact ha

/-! ## Values that nobody asked for -/

mutual

theorem isWhole_of_skip (t : Tree) (h : skip t = .ok ()) : t.IsWhole := by
  cases t with
  | null | bool _ | number _ | string _ => exact trivial
  | array is =>
    rw [skip] at h
    rw [Tree.IsWhole]
    exact isWhole_of_skipItems is h
  | object ms =>
    rw [skip] at h
    rw [Tree.IsWhole]
    exact isWhole_of_skipMembers ms h
  | broken fault =>
    rw [skip] at h
    cases h

theorem isWhole_of_skipItems (is : Items) (h : skipItems is = .ok ()) : is.IsWhole := by
  cases is with
  | closed => exact trivial
  | ended | foreign | comma =>
    rw [skipItems] at h
    cases h
  | cons item rest =>
    rw [skipItems] at h
    obtain ⟨_, hitem, hrest⟩ := bind_eq_ok_iff.mp h
    rw [Items.IsWhole]
    exact ⟨isWhole_of_skip item hitem, isWhole_of_skipItems rest hrest⟩

theorem isWhole_of_skipMembers (ms : Members) (h : skipMembers ms = .ok ()) : ms.IsWhole := by
  cases ms with
  | closed => exact trivial
  | ended | foreign | comma | commaEnded | noKey _ =>
    rw [skipMembers] at h
    cases h
  | cons key value rest =>
    rw [skipMembers] at h
    obtain ⟨_, hvalue, hrest⟩ := bind_eq_ok_iff.mp h
    rw [Members.IsWhole]
    exact ⟨isWhole_of_skip value hvalue, isWhole_of_skipMembers rest hrest⟩

end

theorem mindsGrammar_skip : MindsGrammar skip := fun t _ h => isWhole_of_skip t h

/-! ## Leaves -/

theorem mindsGrammar_text : MindsGrammar text := by
  intro t a h
  cases t with
  | string s => exact trivial
  | null | bool _ | number _ | array _ | object _ | broken _ => cases h

theorem mindsGrammar_bool : MindsGrammar bool := by
  intro t a h
  cases t with
  | bool b => exact trivial
  | null | string _ | number _ | array _ | object _ | broken _ => cases h

theorem mindsGrammar_integer (expected : Expected) (low high : Int) :
    MindsGrammar (integer expected low high) := by
  intro t a h
  cases t with
  | number n => exact trivial
  | null | string _ | bool _ | array _ | object _ | broken _ => cases h

/-- What is made of a value does not matter. -/
theorem MindsGrammar.map {α β : Type} {d : Decoder α} (hd : MindsGrammar d) (f : α → β) :
    MindsGrammar fun t => (d t).map f := by
  intro t b h
  obtain ⟨a, ha, -⟩ := map_eq_ok_iff.mp h
  exact hd t a ha

/-! ## Composite values -/

section Composite

variable {α : Type} {d : Decoder α} (hd : MindsGrammar d)
include hd

theorem MindsGrammar.optional : MindsGrammar (optional d) := by
  intro t a h
  cases t with
  | null => exact trivial
  | bool _ | number _ | string _ | array _ | object _ | broken _ => exact hd.map some _ a h

theorem MindsGrammar.items (is : Items) {as : List α} (h : Json.items d is = .ok as) :
    is.IsWhole := by
  cases is with
  | closed => exact trivial
  | ended | foreign | comma =>
    rw [Json.items] at h
    cases h
  | cons item rest =>
    rw [Json.items] at h
    obtain ⟨a, ha, h⟩ := bind_eq_ok_iff.mp h
    obtain ⟨tail, htail, -⟩ := bind_eq_ok_iff.mp h
    rw [Items.IsWhole]
    exact ⟨hd item a ha, MindsGrammar.items rest htail⟩

theorem MindsGrammar.list : MindsGrammar (list d) := by
  intro t as h
  cases t with
  | array is =>
    rw [Tree.IsWhole]
    exact hd.items is h
  | null | bool _ | number _ | string _ | object _ | broken _ => cases h

end Composite

/-! ## Records -/

namespace Schema

variable {S : Schema}

section Minds

variable (hdecode : ∀ f, MindsGrammar (S.decode f))
include hdecode

theorem isWhole_of_members (hpass : MindsGrammar S.pass) {draft done : S.Draft} (ms : Json.Members)
    (h : S.members draft ms = .ok done) : ms.IsWhole := by
  cases ms with
  | closed => exact trivial
  | ended | foreign | comma | commaEnded | noKey _ =>
    rw [members] at h
    cases h
  | cons key value rest =>
    rw [members] at h
    obtain ⟨k, -, h⟩ := bind_eq_ok_iff.mp h
    rw [Members.IsWhole]
    split at h
    · obtain ⟨_, hvalue, hrest⟩ := bind_eq_ok_iff.mp h
      exact ⟨hpass _ _ hvalue, isWhole_of_members hpass rest hrest⟩
    · obtain ⟨-, h⟩ := refuse_eq_ok_iff.mp h
      obtain ⟨v, hvalue, hrest⟩ := bind_eq_ok_iff.mp h
      exact ⟨hdecode _ _ _ hvalue, isWhole_of_members hpass rest hrest⟩

theorem isWhole_of_items {due : List S.Field} {draft done : S.Draft} {is : Json.Items}
    (h : S.items draft due is = .ok done) : is.IsWhole := by
  induction due generalizing draft is with
  | nil =>
    rw [items] at h
    obtain ⟨_, hend, -⟩ := bind_eq_ok_iff.mp h
    cases is with
    | closed => exact trivial
    | ended | foreign | comma | cons _ _ => cases hend
  | cons f due ih =>
    cases is with
    | closed => exact trivial
    | ended | foreign | comma =>
      rw [items] at h
      cases h
    | cons item rest =>
      rw [items] at h
      obtain ⟨v, hvalue, hrest⟩ := bind_eq_ok_iff.mp h
      rw [Items.IsWhole]
      exact ⟨hdecode f _ _ hvalue, ih hrest⟩

/-- **Records mind the grammar** if their fields do, and if what they pass over is minded. -/
theorem mindsGrammar_read (hpass : MindsGrammar S.pass) : MindsGrammar S.read := by
  intro t r h
  cases t with
  | object ms =>
    have hmembers : S.ofMembers ms = .ok r := h
    obtain ⟨done, hdone, -⟩ := bind_eq_ok_iff.mp hmembers
    exact isWhole_of_members hdecode hpass ms hdone
  | array is =>
    rw [read] at h
    obtain ⟨done, hdone, -⟩ := bind_eq_ok_iff.mp h
    exact isWhole_of_items hdecode hdone
  | null | bool _ | number _ | string _ | broken _ => cases h

end Minds

end Schema

namespace Layout

variable {α : Type} (L : Layout α)

/-- So does a type whose values are records. -/
theorem mindsGrammar (hdecode : ∀ f, MindsGrammar (L.schema.decode f)) :
    MindsGrammar L.decode := by
  have hpass : MindsGrammar L.schema.pass := by
    rw [L.pass_eq]
    exact mindsGrammar_skip
  exact (Schema.mindsGrammar_read hdecode hpass).map L.fields.symm

theorem decode_object_iff {ms : Json.Members} (hwhole : ms.IsWhole) {a : α} :
    L.decode (.object ms) = .ok a ↔ ms.HaveNames ∧ ∀ f,
      ms.Gives (L.schema.key f) (L.schema.decode f) (L.schema.absent f) (L.fields a f) := by
  rw [L.decode_eq_ok_iff]
  exact Schema.read_object_iff L.keysDiffer L.pass_eq hwhole

theorem decode_array_iff {is : Json.Items} {a : α} :
    L.decode (.array is) = .ok a ↔ L.schema.Row (L.fields a) L.schema.fields is := by
  rw [L.decode_eq_ok_iff]
  exact Schema.read_array_iff L.nodup

end Layout

/-! ## What readers read -/

/-- A reader reads what whole trees say. -/
def Reads {α : Type} (d : Decoder α) (Says : Tree → α → Prop) : Prop :=
  ∀ t a, d t = .ok a ↔ t.IsWhole ∧ Says t a

/-- A value that may be missing: where nothing stands for it, `null` does. -/
inductive OrNull {α : Type} (Says : Tree → α → Prop) : Tree → Option α → Prop
  | null : OrNull Says .null none
  | value {t : Tree} {a : α} (hne : t ≠ .null) (h : Says t a) : OrNull Says t (some a)

/-- A list, of which each item says one value. -/
def ItemWise {α : Type} (Says : Tree → α → Prop) (t : Tree) (as : List α) : Prop :=
  ∃ ts, t = .ofList ts ∧ List.Forall₂ Says ts as

/-- What is read of a tree is what it is read as. -/
theorem MindsGrammar.reads {α : Type} {d : Decoder α} (hd : MindsGrammar d) :
    Reads d fun t a => d t = .ok a := by
  intro t a
  exact ⟨fun h => ⟨hd t a h, h⟩, fun h => h.2⟩

theorem reads_text : Reads text fun t s => t = .string (.ok s) := by
  intro t s
  constructor
  · intro h
    have hwhole : t.IsWhole := mindsGrammar_text t s h
    cases t with
    | string text =>
      have htext : text = .ok s := h
      rw [htext]
      exact ⟨trivial, rfl⟩
    | null | bool _ | number _ | array _ | object _ | broken _ => cases h
  · rintro ⟨-, rfl⟩
    rfl

theorem reads_bool : Reads bool fun t b => t = .bool b := by
  intro t b
  constructor
  · intro h
    cases t with
    | bool value =>
      rw [Except.ok.inj h]
      exact ⟨trivial, rfl⟩
    | null | string _ | number _ | array _ | object _ | broken _ => cases h
  · rintro ⟨-, rfl⟩
    rfl

section Reads

variable {α : Type} {d : Decoder α} {Says : Tree → α → Prop} (hd : Reads d Says)
include hd

theorem Reads.mindsGrammar : MindsGrammar d := by
  intro t a h
  exact ((hd t a).mp h).1

/-- **A string is read as what it is a text of says.** -/
theorem Reads.ofString_eq_ok_iff {s : String} {a : α} :
    ofString d s = .ok a ↔ ∃ t, t.IsText s.toList ∧ Says t a := by
  rw [ofString_eq_ok_iff_isText hd.mindsGrammar]
  refine exists_congr fun t => and_congr_right fun htext => ?_
  rw [hd t a]
  exact and_iff_right htext.1

theorem Reads.optional : Reads (optional d) (OrNull Says) := by
  intro t o
  by_cases hnull : t = .null
  · subst hnull
    constructor
    · intro h
      rw [← Except.ok.inj h]
      exact ⟨trivial, .null⟩
    · rintro ⟨-, h⟩
      cases h with
      | null => rfl
      | value hne _ => exact absurd rfl hne
  · rw [optional_of_ne_null d hnull, map_eq_ok_iff]
    constructor
    · rintro ⟨a, ha, rfl⟩
      obtain ⟨hwhole, hsaid⟩ := (hd t a).mp ha
      exact ⟨hwhole, .value hnull hsaid⟩
    · rintro ⟨hwhole, h⟩
      cases h with
      | null => exact absurd rfl hnull
      | value _ hsaid => exact ⟨_, (hd t _).mpr ⟨hwhole, hsaid⟩, rfl⟩

/-- Items are read where all of them are whole. -/
theorem Reads.items_ofList (ts : List Tree) (as : List α) :
    items d (.ofList ts) = .ok as ↔ (Items.ofList ts).IsWhole ∧ List.Forall₂ Says ts as := by
  rw [items_ofList_eq_ok_iff]
  induction ts generalizing as with
  | nil =>
    rw [List.forall₂_nil_left_iff, List.forall₂_nil_left_iff]
    exact (and_iff_right trivial).symm
  | cons t ts ih =>
    rw [Items.ofList, Items.IsWhole]
    constructor
    · intro h
      cases h with
      | cons ha has =>
        obtain ⟨hwhole, hsaid⟩ := (hd _ _).mp ha
        obtain ⟨hwholes, hsay⟩ := (ih _).mp has
        exact ⟨⟨hwhole, hwholes⟩, .cons hsaid hsay⟩
    · rintro ⟨⟨hwhole, hwholes⟩, h⟩
      cases h with
      | cons hsaid hsay =>
        exact .cons ((hd _ _).mpr ⟨hwhole, hsaid⟩) ((ih _).mpr ⟨hwholes, hsay⟩)

theorem Reads.list : Reads (list d) (ItemWise Says) := by
  intro t as
  constructor
  · intro h
    have hwhole : t.IsWhole := hd.mindsGrammar.list t as h
    cases t with
    | array is =>
      rw [Tree.IsWhole] at hwhole
      obtain ⟨ts, rfl⟩ := is.exists_ofList hwhole
      exact ⟨hwhole, ts, rfl, ((hd.items_ofList ts as).mp h).2⟩
    | null | bool _ | number _ | string _ | object _ | broken _ => cases h
  · rintro ⟨hwhole, ts, rfl, h⟩
    exact (hd.items_ofList ts as).mpr ⟨hwhole, h⟩

end Reads

end PinBoard.Json
