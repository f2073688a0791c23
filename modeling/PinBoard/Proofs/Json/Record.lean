import PinBoard.Json.Record
import PinBoard.Json.Writer
import PinBoard.Proofs.Result
import Mathlib.Data.List.Nodup

/-!
# What a record is read from

A field of a record that was read holds what stands behind its key, or what it takes when the key
is not there; read from a list, it holds what stands in its place. The other way round, members with
distinct keys of which each known one can be read make a record, in whatever order they come.
-/

namespace PinBoard.Json

/-! ## Looking a key up -/

/-- What stands behind the first member with a key. -/
def Members.find? (key : String) : Members → Option Tree
  | .cons (.ok k) value rest => if k = key then some value else rest.find? key
  | .cons (.error _) _ rest => rest.find? key
  | .closed | .ended | .foreign | .comma | .commaEnded | .noKey _ => none

theorem Members.find?_cons_self (key : String) (value : Tree) (rest : Members) :
    (Members.cons (.ok key) value rest).find? key = some value := by
  rw [Members.find?, if_pos rfl]

theorem Members.find?_cons_of_ne {k key : String} (h : k ≠ key) (value : Tree) (rest : Members) :
    (Members.cons (.ok k) value rest).find? key = rest.find? key := by
  rw [Members.find?, if_neg h]

/-- In an object that is written from a list the list is looked through. -/
theorem Members.find?_ofList (key : String) (ms : List (String × Tree)) :
    (Members.ofList ms).find? key = ms.lookup key := by
  induction ms with
  | nil => rfl
  | cons m rest ih =>
    obtain ⟨k, value⟩ := m
    rw [Members.ofList]
    by_cases h : k = key
    · subst h
      rw [Members.find?_cons_self, List.lookup_cons_self]
    · rw [Members.find?_cons_of_ne h, ih, List.lookup_cons, beq_false_of_ne (Ne.symm h)]

/-- Nothing is found of a key that does not occur, and of no other. -/
theorem lookup_eq_none_iff {key : String} {ms : List (String × Tree)} :
    ms.lookup key = none ↔ key ∉ ms.map (·.1) := by
  rw [List.lookup_eq_none_iff, List.mem_map, not_exists]
  refine forall_congr' fun m => ?_
  rw [bne_iff_ne, not_and]
  exact forall_congr' fun _ => ne_comm

/-- What is taken from members: what stands behind a key, or where the key does not occur what is
taken otherwise, if anything is. -/
def Takes {α : Type} (ms : List (String × Tree)) (key : String) (d : Decoder α)
    (otherwise : Option α) (v : α) : Prop :=
  (∃ t, ms.lookup key = some t ∧ d t = .ok v) ∨ (ms.lookup key = none ∧ otherwise = some v)

namespace Schema

variable {S : Schema}

/-! ## Drafts -/

/-- The keys of a schema tell its fields apart. -/
def KeysDiffer (S : Schema) : Prop := ∀ f, S.field? (S.key f) = some f

theorem KeysDiffer.injective (hkeys : S.KeysDiffer) : Function.Injective S.key := by
  intro f g h
  have hfound := hkeys f
  rw [h, hkeys g] at hfound
  exact (Option.some.inj hfound).symm

/-- A field is found by its key only. -/
theorem key_of_field? {key : String} {f : S.Field} (h : S.field? key = some f) : S.key f = key := by
  have hfound := List.find?_some h
  simpa using hfound

theorem set_self (draft : S.Draft) (f : S.Field) (v : S.Value f) : S.set draft f v f = some v := by
  rw [set, dif_pos rfl]

theorem set_of_ne (draft : S.Draft) {f g : S.Field} (h : f ≠ g) (v : S.Value f) :
    S.set draft f v g = draft g := by
  rw [set, dif_neg h]

/-- A complete record has for each field what was read, or what the field takes otherwise. -/
theorem filled_of_complete {draft : S.Draft} {r : S.Record} (h : S.complete draft = .ok r)
    (f : S.Field) : S.filled draft f = some (r f) := by
  unfold complete at h
  split at h
  · exact absurd h (by simp)
  · rw [← Except.ok.inj h]
    exact (Option.some_get _).symm

/-- A draft in which no field is missing is complete. -/
theorem complete_of_filled {draft : S.Draft} {r : S.Record}
    (h : ∀ f, S.filled draft f = some (r f)) : S.complete draft = .ok r := by
  have hnone : S.fields.find? (fun f => (S.filled draft f).isNone) = none := by
    rw [List.find?_eq_none]
    intro f _
    rw [h f]
    simp
  unfold complete
  split
  · rename_i f hf
    rw [hnone] at hf
    exact absurd hf (by simp)
  · congr 1
    funext f
    exact Option.get_of_eq_some _ (h f)

/-! ## Members that were read -/

section Members

variable {draft : S.Draft} {key : String} {value : Tree} {rest : Members}

/-- A member that is not known is passed over. -/
theorem members_cons_of_unknown (hkey : S.field? key = none) (hpass : S.pass value = .ok ()) :
    S.members draft (.cons (.ok key) value rest) = S.members draft rest := by
  rw [members, ok_bind, hkey]
  simp only [hpass, ok_bind]

/-- A member that is known is read, unless its field is there already. -/
theorem members_cons_of_known {f : S.Field} {v : S.Value f} (hkey : S.field? key = some f)
    (hfresh : draft f = none) (hv : S.decode f value = .ok v) :
    S.members draft (.cons (.ok key) value rest) = S.members (S.set draft f v) rest := by
  rw [members, ok_bind, hkey]
  simp only [hfresh, hv, ok_bind]
  rfl

/-- What a member that was read leaves to the members behind it. -/
theorem members_cons_eq_ok {text : Text} {done : S.Draft}
    (h : S.members draft (.cons text value rest) = .ok done) :
    ∃ k, text = .ok k ∧
      ((S.field? k = none ∧ S.members draft rest = .ok done) ∨
        ∃ f v, S.field? k = some f ∧ draft f = none ∧ S.decode f value = .ok v ∧
          S.members (S.set draft f v) rest = .ok done) := by
  rw [members] at h
  obtain ⟨k, hk, h⟩ := bind_eq_ok_iff.mp h
  refine ⟨k, hk, ?_⟩
  split at h
  · rename_i hunknown
    obtain ⟨-, -, hrest⟩ := bind_eq_ok_iff.mp h
    exact Or.inl ⟨hunknown, hrest⟩
  · rename_i f hknown
    split at h
    · exact absurd h (by simp)
    · rename_i hfresh
      obtain ⟨v, hv, hrest⟩ := bind_eq_ok_iff.mp h
      exact Or.inr ⟨f, v, hknown, by simpa using hfresh, hv, hrest⟩

end Members

/-- **What members were read as.**  Nothing was there yet of a field whose key occurs, and what
stands behind the key was read; every other field stays as it is. -/
theorem of_members_eq_ok (hkeys : S.KeysDiffer) {draft done : S.Draft} (ms : Json.Members)
    (h : S.members draft ms = .ok done) (f : S.Field) :
    (∀ t, ms.find? (S.key f) = some t →
      draft f = none ∧ ∃ v, S.decode f t = .ok v ∧ done f = some v) ∧
    (ms.find? (S.key f) = none → done f = draft f) := by
  cases ms with
  | closed =>
    rw [members] at h
    rw [Members.find?, Except.ok.inj h]
    exact ⟨fun t ht => absurd ht (by simp), fun _ => rfl⟩
  | ended | foreign | comma | commaEnded | noKey found =>
    rw [members] at h
    exact absurd h (by simp)
  | cons text value rest =>
    obtain ⟨k, rfl, ⟨hunknown, hrest⟩ | ⟨g, v, hknown, hfresh, hv, hrest⟩⟩ := members_cons_eq_ok h
    · have hne : k ≠ S.key f := by
        rintro rfl
        rw [hkeys f] at hunknown
        exact absurd hunknown (by simp)
      rw [Members.find?_cons_of_ne hne]
      exact of_members_eq_ok hkeys rest hrest f
    · have hlater := of_members_eq_ok hkeys rest hrest f
      by_cases hfield : g = f
      -- the field of this member: it cannot come again, so what was read here stays
      · subst hfield
        rw [← key_of_field? hknown, Members.find?_cons_self]
        have hnone : rest.find? (S.key g) = none := by
          rcases hagain : rest.find? (S.key g) with _ | t
          · rfl
          · have hblank := (hlater.1 t hagain).1
            rw [set_self] at hblank
            exact absurd hblank (by simp)
        have hdone := hlater.2 hnone
        rw [set_self] at hdone
        refine ⟨fun t ht => ?_, fun habsent => absurd habsent (by simp)⟩
        rw [← Option.some.inj ht]
        exact ⟨hfresh, v, hv, hdone⟩
      · have hne : k ≠ S.key f := by
          rintro rfl
          rw [hkeys f] at hknown
          exact hfield (Option.some.inj hknown).symm
        rw [set_of_ne draft hfield] at hlater
        rw [Members.find?_cons_of_ne hne]
        exact hlater

/-- **What a record was read from.**  Behind the key of a field stands what the field was read from;
where the key does not occur, the field holds what it takes otherwise. -/
theorem of_ofMembers_eq_ok (hkeys : S.KeysDiffer) {ms : Json.Members} {r : S.Record}
    (h : S.ofMembers ms = .ok r) (f : S.Field) :
    (∀ t, ms.find? (S.key f) = some t → S.decode f t = .ok (r f)) ∧
    (ms.find? (S.key f) = none → S.absent f = some (r f)) := by
  obtain ⟨draft, hdraft, hcomplete⟩ := bind_eq_ok_iff.mp h
  have hfilled := filled_of_complete hcomplete f
  have hread := of_members_eq_ok hkeys ms hdraft f
  rw [filled] at hfilled
  constructor
  · intro t ht
    obtain ⟨-, v, hv, hdone⟩ := hread.1 t ht
    rw [hdone, Option.some_or] at hfilled
    rw [hv, Option.some.inj hfilled]
  · intro habsent
    rw [hread.2 habsent] at hfilled
    exact hfilled

/-! ## Items that were read -/

/-- A field that is not due stays as it is. -/
theorem items_of_not_due {f : S.Field} {due : List S.Field} (hf : f ∉ due) {draft done : S.Draft}
    {is : Json.Items} (h : S.items draft due is = .ok done) : done f = draft f := by
  induction due generalizing draft is with
  | nil =>
    rw [items] at h
    obtain ⟨_, _, h⟩ := bind_eq_ok_iff.mp h
    rw [Except.ok.inj h]
  | cons g due ih =>
    rw [List.mem_cons, not_or] at hf
    cases is with
    | closed =>
      rw [items] at h
      split at h
      · rw [ih hf.2 h, set_of_ne draft (Ne.symm hf.1)]
      · exact absurd h (by simp)
    | cons item rest =>
      rw [items] at h
      obtain ⟨v, _, h⟩ := bind_eq_ok_iff.mp h
      rw [ih hf.2 h, set_of_ne draft (Ne.symm hf.1)]
    | ended | foreign | comma =>
      rw [items] at h
      exact absurd h (by simp)

/-- The field that is due first is read from the first item, where there is one. -/
theorem of_items_cons_eq_ok {f : S.Field} {due : List S.Field} (hf : f ∉ due) {draft done : S.Draft}
    {item : Tree} {rest : Json.Items} (h : S.items draft (f :: due) (.cons item rest) = .ok done) :
    ∃ v, S.decode f item = .ok v ∧ done f = some v := by
  rw [items] at h
  obtain ⟨v, hv, hrest⟩ := bind_eq_ok_iff.mp h
  refine ⟨v, hv, ?_⟩
  rw [items_of_not_due hf hrest, set_self]

/-- What stands in an array for the fields that are due, in their order. The bracket may come before
fields that can do without an item, and behind the last field it has to. -/
def Row (S : Schema) (r : S.Record) : List S.Field → Json.Items → Prop
  | [], .closed => True
  | f :: due, .cons item rest => S.decode f item = .ok (r f) ∧ S.Row r due rest
  | f :: due, .closed => S.cut f = some (r f) ∧ S.Row r due .closed
  | _, _ => False

/-- Each field that is due is read, if any items are. -/
theorem row_of_items_eq_ok {r : S.Record} {due : List S.Field} (hdue : due.Nodup)
    {draft done : S.Draft} {is : Json.Items} (h : S.items draft due is = .ok done)
    (hdone : ∀ f v, done f = some v → v = r f) : S.Row r due is := by
  induction due generalizing draft is with
  | nil =>
    rw [items] at h
    obtain ⟨_, hend, -⟩ := bind_eq_ok_iff.mp h
    cases is with
    | closed => exact trivial
    | ended | foreign | comma | cons _ _ => cases hend
  | cons f due ih =>
    obtain ⟨hf, hdue⟩ := List.nodup_cons.mp hdue
    have hset : ∀ {v : S.Value f} {is : Json.Items},
        S.items (S.set draft f v) due is = .ok done → v = r f := by
      intro v is hrest
      refine hdone f v ?_
      rw [items_of_not_due hf hrest, set_self]
    cases is with
    | ended | foreign | comma =>
      rw [items] at h
      cases h
    | cons item rest =>
      rw [items] at h
      obtain ⟨v, hv, hrest⟩ := bind_eq_ok_iff.mp h
      rw [hset hrest] at hv
      exact ⟨hv, ih hdue hrest⟩
    | closed =>
      rw [items] at h
      split at h
      · next v hv =>
        rw [hset h] at hv
        exact ⟨hv, ih hdue h⟩
      · cases h

/-- Where something stands for each field that is due the items are read. -/
theorem exists_items_of_row {r : S.Record} {due : List S.Field} {is : Json.Items}
    (h : S.Row r due is) (draft : S.Draft) :
    ∃ done, S.items draft due is = .ok done ∧ (∀ f ∈ due, done f = some (r f)) ∧
      ∀ f, draft f = some (r f) → done f = some (r f) := by
  induction due generalizing draft is with
  | nil =>
    cases is with
    | closed => exact ⟨draft, rfl, fun f hf => absurd hf List.not_mem_nil, fun f hf => hf⟩
    | ended | foreign | comma | cons _ _ => exact h.elim
  | cons f due ih =>
    have hset : ∀ {is : Json.Items}, S.Row r due is →
        ∃ done, S.items (S.set draft f (r f)) due is = .ok done ∧
          (∀ g ∈ f :: due, done g = some (r g)) ∧
          ∀ g, draft g = some (r g) → done g = some (r g) := by
      intro is hrow
      obtain ⟨done, hdone, hread, hkept⟩ := ih hrow (S.set draft f (r f))
      refine ⟨done, hdone, ?_, ?_⟩
      · intro g hg
        rcases List.mem_cons.mp hg with rfl | hg
        · exact hkept g (set_self draft g (r g))
        · exact hread g hg
      · intro g hg
        by_cases hfield : f = g
        · subst hfield
          exact hkept f (set_self draft f (r f))
        · exact hkept g ((set_of_ne draft hfield (r f)).trans hg)
    cases is with
    | ended | foreign | comma => exact h.elim
    | cons item rest =>
      obtain ⟨done, hdone, hread⟩ := hset h.2
      refine ⟨done, ?_, hread⟩
      rw [items, h.1, ok_bind]
      exact hdone
    | closed =>
      obtain ⟨done, hdone, hread⟩ := hset h.2
      refine ⟨done, ?_, hread⟩
      rw [items]
      simp only [h.1]
      exact hdone

/-- **What an array is read as.**  A record is read from an array in which something stands for each
of its fields, in their order. -/
theorem read_array_iff (hnodup : S.fields.Nodup) {is : Json.Items} {r : S.Record} :
    S.read (.array is) = .ok r ↔ S.Row r S.fields is := by
  constructor
  · intro h
    rw [read] at h
    obtain ⟨done, hdone, hcomplete⟩ := bind_eq_ok_iff.mp h
    refine row_of_items_eq_ok hnodup hdone fun f v hv => ?_
    have hfilled := filled_of_complete hcomplete f
    rw [filled, hv, Option.some_or] at hfilled
    exact Option.some.inj hfilled
  · intro h
    obtain ⟨done, hdone, hread, -⟩ := exists_items_of_row h S.blank
    rw [read, hdone, ok_bind]
    refine complete_of_filled fun f => ?_
    rw [filled, hread f (S.mem_fields f), Option.some_or]

/-! ## Records that can be read -/

/-- No key of the schema occurs twice. Other keys may. -/
def KnownOnce (S : Schema) (ms : List (String × Tree)) : Prop :=
  ∀ f, (ms.map (·.1)).count (S.key f) ≤ 1

section KnownOnce

variable {m : String × Tree} {ms : List (String × Tree)}

theorem knownOnce_of_nodup (h : (ms.map (·.1)).Nodup) : S.KnownOnce ms :=
  fun f => List.nodup_iff_count_le_one.mp h (S.key f)

theorem KnownOnce.tail (h : S.KnownOnce (m :: ms)) : S.KnownOnce ms := by
  intro f
  have hcount := h f
  rw [List.map_cons, List.count_cons] at hcount
  omega

/-- The key of a known member does not come again. -/
theorem KnownOnce.not_mem_tail (h : S.KnownOnce (m :: ms)) {f : S.Field} (hf : S.key f = m.1) :
    m.1 ∉ ms.map (·.1) := by
  have hcount := h f
  rw [List.map_cons, List.count_cons, hf, beq_self_eq_true, if_pos rfl] at hcount
  exact List.count_eq_zero.mp (by omega)

/-- Among members that repeat no known key each known one is found. -/
theorem KnownOnce.lookup_of_mem (h : S.KnownOnce ms) (hm : m ∈ ms) {f : S.Field}
    (hf : S.key f = m.1) : ms.lookup m.1 = some m.2 := by
  induction ms with
  | nil => exact absurd hm List.not_mem_nil
  | cons n rest ih =>
    rcases List.mem_cons.mp hm with rfl | hrest
    · exact List.lookup_cons_self
    · have hne : m.1 ≠ n.1 := by
        intro heq
        refine h.not_mem_tail (hf.trans heq) ?_
        rw [← heq]
        exact List.mem_map_of_mem hrest
      rw [List.lookup_cons, beq_false_of_ne hne]
      exact ih h.tail hrest

end KnownOnce

/-- Members of which the known ones can be read and the others passed over make a draft, unless a
known key comes twice. -/
theorem exists_members (ms : List (String × Tree)) (hdistinct : S.KnownOnce ms)
    (hread : ∀ m ∈ ms, ∀ f, S.field? m.1 = some f → ∃ v, S.decode f m.2 = .ok v)
    (hpass : ∀ m ∈ ms, S.field? m.1 = none → S.pass m.2 = .ok ()) (draft : S.Draft)
    (hfresh : ∀ m ∈ ms, ∀ f, S.field? m.1 = some f → draft f = none) :
    ∃ done, S.members draft (.ofList ms) = .ok done := by
  induction ms generalizing draft with
  | nil => exact ⟨draft, rfl⟩
  | cons m rest ih =>
    have hrest := ih hdistinct.tail (fun m hm => hread m (List.mem_cons_of_mem _ hm))
      (fun m hm => hpass m (List.mem_cons_of_mem _ hm))
    rw [show Members.ofList (m :: rest) = .cons (.ok m.1) m.2 (.ofList rest) from rfl]
    cases hkey : S.field? m.1 with
    | none =>
      rw [members_cons_of_unknown hkey (hpass m List.mem_cons_self hkey)]
      exact hrest draft fun n hn => hfresh n (List.mem_cons_of_mem _ hn)
    | some f =>
      obtain ⟨v, hv⟩ := hread m List.mem_cons_self f hkey
      rw [members_cons_of_known hkey (hfresh m List.mem_cons_self f hkey) hv]
      refine hrest (S.set draft f v) ?_
      intro n hn g hg
      have hne : f ≠ g := by
        rintro rfl
        refine hdistinct.not_mem_tail (key_of_field? hkey) (List.mem_map.mpr ⟨n, hn, ?_⟩)
        rw [← key_of_field? hg, ← key_of_field? hkey]
      rw [set_of_ne draft hne]
      exact hfresh n (List.mem_cons_of_mem _ hn) g hg

/-- Members that make a draft repeat no known key. -/
theorem knownOnce_of_members (hkeys : S.KeysDiffer) (ms : List (String × Tree))
    {draft done : S.Draft} (h : S.members draft (.ofList ms) = .ok done) : S.KnownOnce ms := by
  induction ms generalizing draft with
  | nil => exact fun _ => Nat.zero_le 1
  | cons m rest ih =>
    obtain ⟨k, hk, hread⟩ := members_cons_eq_ok h
    obtain rfl : m.1 = k := Except.ok.inj hk
    intro f
    rw [List.map_cons, List.count_cons]
    rcases hread with ⟨hunknown, hrest⟩ | ⟨g, v, hknown, -, -, hrest⟩
    · have hne : (m.1 == S.key f) = false := by
        rw [beq_eq_false_iff_ne]
        intro heq
        rw [heq, hkeys f] at hunknown
        exact absurd hunknown (by simp)
      rw [hne]
      exact ih hrest f
    · by_cases hfield : g = f
      -- the draft has this field already, so its key cannot come again
      · subst hfield
        have hnone : rest.lookup (S.key g) = none := by
          rw [← Members.find?_ofList]
          rcases hagain : (Members.ofList rest).find? (S.key g) with _ | t
          · rfl
          · have hblank := ((of_members_eq_ok hkeys _ hrest g).1 t hagain).1
            rw [set_self] at hblank
            exact absurd hblank (by simp)
        have hcount : (rest.map (·.1)).count (S.key g) = 0 := by
          exact List.count_eq_zero.mpr (lookup_eq_none_iff.mp hnone)
        split <;> omega
      · have hne : (m.1 == S.key f) = false := by
          rw [beq_eq_false_iff_ne, ← key_of_field? hknown]
          exact fun heq => hfield (hkeys.injective heq)
        rw [hne]
        exact ih hrest f

/-- What a field is read as. -/
def Finds (S : Schema) (ms : List (String × Tree)) (f : S.Field) (v : S.Value f) : Prop :=
  Takes ms (S.key f) (S.decode f) (S.absent f) v

section Read

variable {ms : List (String × Tree)} {r : S.Record} (hkeys : S.KeysDiffer)
include hkeys

/-- A record that was read has for each field what the field finds. -/
theorem finds_of_read_ofMembers (h : S.read (.ofMembers ms) = .ok r) (f : S.Field) :
    S.Finds ms f (r f) := by
  have hmembers : S.ofMembers (.ofList ms) = .ok r := h
  have hfield := of_ofMembers_eq_ok hkeys hmembers f
  rw [Members.find?_ofList] at hfield
  rcases hfound : ms.lookup (S.key f) with _ | t
  · exact Or.inr ⟨hfound, hfield.2 hfound⟩
  · exact Or.inl ⟨t, hfound, hfield.1 t hfound⟩

/-- **Reading a record.**  Members of which no known key comes twice make the record whose fields
are read from what stands behind their keys, or take what they take otherwise; the order of the
members and members that are not known make no difference. -/
theorem read_ofMembers (hdistinct : S.KnownOnce ms)
    (hpass : ∀ m ∈ ms, S.field? m.1 = none → S.pass m.2 = .ok ())
    (hr : ∀ f, S.Finds ms f (r f)) : S.read (.ofMembers ms) = .ok r := by
  have hread : ∀ m ∈ ms, ∀ f, S.field? m.1 = some f → ∃ v, S.decode f m.2 = .ok v := by
    intro m hm f hf
    have hfound := hdistinct.lookup_of_mem hm (key_of_field? hf)
    rw [← key_of_field? hf] at hfound
    rcases hr f with ⟨t, ht, hdecode⟩ | ⟨habsent, -⟩
    · rw [ht, Option.some.injEq] at hfound
      rw [← hfound]
      exact ⟨r f, hdecode⟩
    · rw [habsent] at hfound
      exact absurd hfound (by simp)
  obtain ⟨done, hdone⟩ := exists_members ms hdistinct hread hpass S.blank fun _ _ _ _ => rfl
  have hcomplete : S.complete done = .ok r := by
    refine complete_of_filled fun f => ?_
    have hfield := of_members_eq_ok hkeys _ hdone f
    rw [Members.find?_ofList] at hfield
    rw [filled]
    rcases hr f with ⟨t, ht, hdecode⟩ | ⟨habsent, htaken⟩
    · obtain ⟨-, v, hv, hdone⟩ := hfield.1 t ht
      rw [hdecode, Except.ok.injEq] at hv
      rw [hdone, hv, Option.some_or]
    · rw [hfield.2 habsent]
      exact htaken
  show S.ofMembers (.ofList ms) = .ok r
  rw [ofMembers, hdone, ok_bind, hcomplete]

/-- **What an object is read as.**  Where nothing objects to being passed over, an object is read as
a record exactly if no known key comes twice and each field finds its value. -/
theorem read_ofMembers_iff (hpass : ∀ m ∈ ms, S.field? m.1 = none → S.pass m.2 = .ok ()) :
    S.read (.ofMembers ms) = .ok r ↔ S.KnownOnce ms ∧ ∀ f, S.Finds ms f (r f) := by
  constructor
  · intro h
    have hmembers : S.ofMembers (.ofList ms) = .ok r := h
    obtain ⟨done, hdone, -⟩ := bind_eq_ok_iff.mp hmembers
    exact ⟨knownOnce_of_members hkeys ms hdone, finds_of_read_ofMembers hkeys h⟩
  · rintro ⟨hdistinct, hfinds⟩
    exact read_ofMembers hkeys hdistinct hpass hfinds

end Read

end Schema

end PinBoard.Json
