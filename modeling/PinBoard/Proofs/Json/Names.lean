import PinBoard.Proofs.Json.Members

/-!
# Names of members

A name in the text of an object need not spell characters, since a surrogate may stand alone in it.
Such an object belongs to the grammar, and yet no record is read from it, whether or not the record
knows a member of such a name. From any other object a record is read by the names of its members.
-/

namespace PinBoard.Json

/-! ## Members by name -/

/-- What stands behind a name, in the order of the members. -/
def Members.named (name : String) : Members → List Tree
  | .cons (.ok key) value rest =>
    if key = name then value :: rest.named name else rest.named name
  | .cons (.error _) _ rest => rest.named name
  | .closed | .ended | .foreign | .comma | .commaEnded | .noKey _ => []

/-- Every name spells characters. -/
def Members.HaveNames : Members → Prop
  | .cons key _ rest => (∃ name, key = .ok name) ∧ rest.HaveNames
  | .closed | .ended | .foreign | .comma | .commaEnded | .noKey _ => True

theorem Members.haveNames_ofList (l : List (String × Tree)) : (Members.ofList l).HaveNames := by
  induction l with
  | nil => exact trivial
  | cons m rest ih => exact ⟨⟨m.1, rfl⟩, ih⟩

/-- The members of a whole object whose names spell characters are those of a list. -/
theorem Members.exists_ofList (ms : Members) (hwhole : ms.IsWhole) (hnames : ms.HaveNames) :
    ∃ l, ms = .ofList l := by
  cases ms with
  | closed => exact ⟨[], rfl⟩
  | cons key value rest =>
    rw [Members.IsWhole] at hwhole
    obtain ⟨⟨name, rfl⟩, hrest⟩ := hnames
    obtain ⟨l, rfl⟩ := Members.exists_ofList rest hwhole.2 hrest
    exact ⟨(name, value) :: l, rfl⟩
  | ended | foreign | comma | commaEnded | noKey found =>
    rw [Members.IsWhole] at hwhole
    exact hwhole.elim

/-- What stands behind a name in a whole object is whole. -/
theorem Members.isWhole_of_mem_named {name : String} (ms : Members) (hwhole : ms.IsWhole) {t : Tree}
    (ht : t ∈ ms.named name) : t.IsWhole := by
  cases ms with
  | cons key value rest =>
    rw [Members.IsWhole] at hwhole
    have hrest : t ∈ rest.named name → t.IsWhole :=
      Members.isWhole_of_mem_named rest hwhole.2
    cases key with
    | error e => exact hrest ht
    | ok key =>
      rw [Members.named] at ht
      split at ht
      · rcases List.mem_cons.mp ht with rfl | ht
        · exact hwhole.1
        · exact hrest ht
      · exact hrest ht
  | closed | ended | foreign | comma | commaEnded | noKey found =>
    exact absurd ht List.not_mem_nil

/-- So is the one value behind a name. -/
theorem Members.isWhole_of_named {name : String} {ms : Members} (hwhole : ms.IsWhole) {t : Tree}
    (h : ms.named name = [t]) : t.IsWhole := by
  apply ms.isWhole_of_mem_named hwhole
  rw [h]
  exact List.mem_singleton_self t

section Named

variable (name : String) (m : String × Tree) (l : List (String × Tree))

theorem Members.named_cons :
    (Members.ofList (m :: l)).named name =
      if m.1 = name then m.2 :: (Members.ofList l).named name else (Members.ofList l).named name :=
  rfl

/-- A name occurs as often as something stands behind it. -/
theorem Members.count_eq_length_named :
    (l.map (·.1)).count name = ((Members.ofList l).named name).length := by
  induction l with
  | nil => rfl
  | cons m rest ih =>
    rw [Members.named_cons, List.map_cons, List.count_cons, ih]
    by_cases h : m.1 = name
    · rw [if_pos h, h, beq_self_eq_true, if_pos rfl, List.length_cons]
    · rw [if_neg h, beq_false_of_ne h, if_neg Bool.false_ne_true, Nat.add_zero]

/-- What is found of a name is what stands behind it first. -/
theorem Members.lookup_eq_head_named :
    l.lookup name = ((Members.ofList l).named name).head? := by
  induction l with
  | nil => rfl
  | cons m rest ih =>
    obtain ⟨key, value⟩ := m
    rw [Members.named_cons]
    by_cases h : key = name
    · rw [if_pos h, h, List.lookup_cons_self, List.head?_cons]
    · rw [if_neg h, List.lookup_cons, beq_false_of_ne (Ne.symm h)]
      exact ih

end Named

/-! ## Records -/

/-- **A record is read from members only if all their names spell characters.** -/
theorem Schema.exists_ofList_of_members {S : Schema} {draft done : S.Draft} (ms : Json.Members)
    (h : S.members draft ms = .ok done) : ∃ l, ms = .ofList l := by
  cases ms with
  | closed => exact ⟨[], rfl⟩
  | ended | foreign | comma | commaEnded | noKey found =>
    rw [members] at h
    exact absurd h (by simp)
  | cons text value rest =>
    obtain ⟨key, rfl, ⟨-, hrest⟩ | ⟨f, v, -, -, -, hrest⟩⟩ := members_cons_eq_ok h
    · obtain ⟨l, rfl⟩ := Schema.exists_ofList_of_members rest hrest
      exact ⟨(key, value) :: l, rfl⟩
    · obtain ⟨l, rfl⟩ := Schema.exists_ofList_of_members rest hrest
      exact ⟨(key, value) :: l, rfl⟩

/-- What the members of an object give for a key: what the one value behind it is read as, or what
is taken for it where it does not occur. -/
def Members.Gives {α : Type} (ms : Members) (key : String) (d : Decoder α) (absent : Option α)
    (a : α) : Prop :=
  (∃ t, ms.named key = [t] ∧ d t = .ok a) ∨ (ms.named key = [] ∧ absent = some a)

/-- A list has one entry if it has a first and no second. -/
theorem singleton_or_nil_iff {l : List Tree} {P : Tree → Prop} {q : Prop} :
    l.length ≤ 1 ∧ ((∃ t, l.head? = some t ∧ P t) ∨ (l = [] ∧ q)) ↔
      (∃ t, l = [t] ∧ P t) ∨ (l = [] ∧ q) := by
  match l with
  | [] => simp
  | [t] => simp
  | t :: u :: rest => simp

/-- What a whole object is read as by a schema that passes over what it does not know. -/
theorem Schema.read_object_iff {S : Schema} (hkeys : S.KeysDiffer) (hpass : S.pass = skip)
    {ms : Json.Members} (hwhole : ms.IsWhole) {r : S.Record} :
    S.read (.object ms) = .ok r ↔
      ms.HaveNames ∧ ∀ f, ms.Gives (S.key f) (S.decode f) (S.absent f) (r f) := by
  have hlist : ∀ l, ms = .ofList l → (S.read (.object ms) = .ok r ↔
      ∀ f, ms.Gives (S.key f) (S.decode f) (S.absent f) (r f)) := by
    rintro l rfl
    have hskip : ∀ m ∈ l, S.field? m.1 = none → S.pass m.2 = .ok () := by
      intro m hm _
      rw [hpass]
      exact skip_of_isWhole m.2 (isWhole_of_mem hwhole hm)
    have hread := Schema.read_ofMembers_iff hkeys hskip (r := r)
    simp only [KnownOnce, Finds, Takes, Members.count_eq_length_named,
      Members.lookup_eq_head_named, List.head?_eq_none_iff, ← forall_and,
      singleton_or_nil_iff] at hread
    exact hread
  constructor
  · intro h
    have hmembers : S.ofMembers ms = .ok r := h
    obtain ⟨done, hdone, -⟩ := bind_eq_ok_iff.mp hmembers
    obtain ⟨l, hl⟩ := Schema.exists_ofList_of_members ms hdone
    refine ⟨?_, (hlist l hl).mp h⟩
    rw [hl]
    exact Members.haveNames_ofList l
  · rintro ⟨hnames, hread⟩
    obtain ⟨l, hl⟩ := ms.exists_ofList hwhole hnames
    exact (hlist l hl).mpr hread

/-! ## Lists -/

/-- The items of a whole array are those of a list. -/
theorem Items.exists_ofList (is : Items) (hwhole : is.IsWhole) : ∃ ts, is = .ofList ts := by
  cases is with
  | closed => exact ⟨[], rfl⟩
  | cons item rest =>
    rw [Items.IsWhole] at hwhole
    obtain ⟨ts, rfl⟩ := Items.exists_ofList rest hwhole.2
    exact ⟨item :: ts, rfl⟩
  | ended | foreign | comma =>
    rw [Items.IsWhole] at hwhole
    exact hwhole.elim

/-- **A list is read item by item**, in the order of its items. -/
theorem items_ofList_eq_ok_iff {α : Type} (d : Decoder α) (ts : List Tree) (as : List α) :
    items d (.ofList ts) = .ok as ↔ List.Forall₂ (fun t a => d t = .ok a) ts as := by
  induction ts generalizing as with
  | nil =>
    rw [List.forall₂_nil_left_iff]
    show Except.ok [] = Except.ok as ↔ _
    rw [Except.ok.injEq, eq_comm]
  | cons t ts ih =>
    show (d t >>= fun head => items d (.ofList ts) >>= fun tail => .ok (head :: tail)) = .ok as ↔ _
    simp only [bind_eq_ok_iff, ih, List.forall₂_cons_left_iff, Except.ok.injEq]
    constructor
    · rintro ⟨head, hhead, tail, htail, rfl⟩
      exact ⟨head, tail, hhead, htail, rfl⟩
    · rintro ⟨head, tail, hhead, htail, rfl⟩
      exact ⟨head, hhead, tail, htail, rfl⟩

/-- There is a list to read if there is something to read of every item. -/
theorem exists_forall₂_iff {α : Type} (d : Decoder α) (ts : List Tree) :
    (∃ as, List.Forall₂ (fun t a => d t = .ok a) ts as) ↔ ∀ t ∈ ts, ∃ a, d t = .ok a := by
  induction ts with
  | nil => exact ⟨fun _ t ht => absurd ht List.not_mem_nil, fun _ => ⟨[], .nil⟩⟩
  | cons t ts ih =>
    rw [List.forall_mem_cons, ← ih]
    constructor
    · rintro ⟨as, has⟩
      cases has with
      | cons hhead htail => exact ⟨⟨_, hhead⟩, _, htail⟩
    · rintro ⟨⟨a, ha⟩, as, has⟩
      exact ⟨a :: as, .cons ha has⟩

end PinBoard.Json
