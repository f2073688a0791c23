import PinBoard.Registry
import Mathlib.Data.List.Induction

/-!
# What a registry finds

Services are added one after the other, of all kinds in any order and under any identifiers. What is
found of one kind is told by what was added of that kind and by nothing else: the service that was
added last under an identifier, and without one the service under the identifier that was added
first. Each addition is one step of one shelf, and runs of them follow by induction on the last one.
-/

namespace PinBoard

/-! ## One kind of service -/

/-- A service is the last one that was added under an identifier. -/
def IsLastUnder {α : Type} (added : List (String × α)) (id : String) (service : α) : Prop :=
  ∃ before since, added = before ++ (id, service) :: since ∧ ∀ e ∈ since, e.1 ≠ id

/-- Leaving out the entries of one name changes nothing for the others. -/
theorem lookup_filter_ne {α : Type} (entries : List (String × α)) {name other : String}
    (h : other ≠ name) : (entries.filter (·.1 ≠ name)).lookup other = entries.lookup other := by
  induction entries with
  | nil => rfl
  | cons e rest ih =>
    by_cases he : e.1 = name
    · have hne : (other == e.1) = false := by simpa [he] using h
      rw [List.filter_cons_of_neg (by simpa using he), ih, List.lookup_cons, hne]
    · rw [List.filter_cons_of_pos (by simpa using he), List.lookup_cons, List.lookup_cons, ih]

/-- The shelf after services were added one after the other. -/
def Shelf.ofAdded {α : Type} (added : List (String × α)) : Shelf α :=
  added.foldl (fun shelf e => shelf.add e.1 e.2) .empty

section Shelf

variable {α : Type} {added : List (String × α)} {id : String} {service : α}

/-- With one service more the last one under an identifier is that service, or the one before if it
has another identifier. -/
theorem isLastUnder_concat (e : String × α) :
    IsLastUnder (added ++ [e]) id service ↔
      e = (id, service) ∨ (e.1 ≠ id ∧ IsLastUnder added id service) := by
  constructor
  · rintro ⟨before, since, hsplit, hsince⟩
    rcases List.eq_nil_or_concat since with rfl | ⟨since, last, rfl⟩
    · exact Or.inl (List.singleton_inj.mp (List.append_inj' hsplit rfl).2)
    · rw [List.concat_eq_append, ← List.cons_append, ← List.append_assoc] at hsplit
      obtain ⟨hadded, hlast⟩ := List.append_inj' hsplit rfl
      obtain rfl := List.singleton_inj.mp hlast
      rw [List.concat_eq_append] at hsince
      refine Or.inr ⟨hsince e (by simp), before, since, hadded, ?_⟩
      intro f hf
      exact hsince f (List.mem_append_left _ hf)
  · rintro (rfl | ⟨hother, before, since, rfl, hsince⟩)
    · exact ⟨added, [], rfl, fun f hf => absurd hf List.not_mem_nil⟩
    · refine ⟨before, since ++ [e], by simp, ?_⟩
      intro f hf
      rcases List.mem_append.mp hf with hf | hf
      · exact hsince f hf
      · rw [List.mem_singleton.mp hf]
        exact hother

/-- Under an identifier that was added there is a last service. -/
theorem exists_isLastUnder_iff :
    (∃ service, IsLastUnder added id service) ↔ ∃ e ∈ added, e.1 = id := by
  induction added using List.reverseRecOn with
  | nil => simp [IsLastUnder]
  | append_singleton added e ih =>
    simp only [isLastUnder_concat, exists_or, List.mem_append, List.mem_singleton, or_and_right,
      exists_eq_left, exists_and_left, ih]
    by_cases h : e.1 = id
    · subst h
      exact iff_of_true (Or.inl ⟨e.2, rfl⟩) (Or.inr rfl)
    · have hnew : ¬ ∃ service, e = (id, service) := by
        rintro ⟨service, rfl⟩
        exact h rfl
      simp [h, hnew]

namespace Shelf

theorem ofAdded_concat (added : List (String × α)) (e : String × α) :
    ofAdded (added ++ [e]) = (ofAdded added).add e.1 e.2 := by
  rw [ofAdded, List.foldl_append]
  rfl

/-- What is added is found under its identifier, and all else as before. -/
theorem find?_add (shelf : Shelf α) (e : String × α) (other : String) :
    (shelf.add e.1 e.2).find? (some other) =
      if other = e.1 then some e.2 else shelf.find? (some other) := by
  show List.lookup other ((e.1, e.2) :: shelf.entries.filter (·.1 ≠ e.1)) = _
  by_cases h : other = e.1
  · rw [if_pos h, h, List.lookup_cons_self]
  · have hne : (other == e.1) = false := by simpa using h
    rw [if_neg h, List.lookup_cons, hne]
    exact lookup_filter_ne _ h

/-- **Under an identifier** the service is found that was added last under it. -/
theorem find?_ofAdded_eq_some_iff :
    (ofAdded added).find? (some id) = some service ↔ IsLastUnder added id service := by
  induction added using List.reverseRecOn with
  | nil => simp [IsLastUnder, ofAdded, find?, empty]
  | append_singleton added e ih =>
    rw [ofAdded_concat, find?_add, isLastUnder_concat, ← ih, Prod.ext_iff]
    by_cases h : id = e.1
    · simp [h]
    · simp [h, Ne.symm h]

theorem find?_ofAdded_eq_none_iff :
    (ofAdded added).find? (some id) = none ↔ ∀ e ∈ added, e.1 ≠ id := by
  have hfound : (∃ service, (ofAdded added).find? (some id) = some service) ↔
      ∃ e ∈ added, e.1 = id := by
    simp only [find?_ofAdded_eq_some_iff, exists_isLastUnder_iff]
  rw [Option.eq_none_iff_forall_ne_some, ← not_exists, hfound]
  push Not
  rfl

/-- The identifier that was added first stands in for all times. -/
theorem first_ofAdded (added : List (String × α)) :
    (ofAdded added).first = added.head?.map Prod.fst := by
  induction added using List.reverseRecOn with
  | nil => rfl
  | append_singleton added e ih =>
    rw [ofAdded_concat]
    show (ofAdded added).first.or (some e.1) = _
    -- only the first addition finds no identifier that stands in
    rw [ih, List.head?_append]
    cases added <;> rfl

theorem entries_ofAdded_isEmpty (added : List (String × α)) :
    (ofAdded added).entries.isEmpty = true ↔ added = [] := by
  induction added using List.reverseRecOn with
  | nil => exact iff_of_true rfl rfl
  | append_singleton added e _ =>
    rw [ofAdded_concat]
    exact iff_of_false Bool.false_ne_true (by simp)

/-- **Without an identifier** the service is found that was added last under the first one. -/
theorem find?_none_ofAdded (h : added ≠ []) :
    ∃ first service, added.head?.map Prod.fst = some first ∧ IsLastUnder added first service ∧
      (ofAdded added).find? none = some service := by
  obtain ⟨e, rest, rfl⟩ := List.exists_cons_of_ne_nil h
  obtain ⟨service, hlast⟩ : ∃ service, IsLastUnder (e :: rest) e.1 service :=
    exists_isLastUnder_iff.mpr ⟨e, List.mem_cons_self, rfl⟩
  refine ⟨e.1, service, rfl, hlast, ?_⟩
  have hsame : (ofAdded (e :: rest)).find? none = (ofAdded (e :: rest)).find? (some e.1) := by
    rw [find?, first_ofAdded]
    rfl
  rw [hsame]
  exact find?_ofAdded_eq_some_iff.mpr hlast

end Shelf

end Shelf

/-! ## All kinds -/

namespace ServiceKind

/-- The services of a kind. -/
abbrev Of (P L A : Type) : ServiceKind → Type
  | .pins => P
  | .listens => L
  | .accounts => A

/-- The kinds in the order in which they are looked for. -/
def order : List ServiceKind := [.pins, .listens, .accounts]

/-- What one service of a kind is called. -/
def noun : ServiceKind → String
  | .pins => "pin service"
  | .listens => "listen source"
  | .accounts => "account provider"

/-- The kind that is missing is named. -/
theorem missingMessage_eq (kind : ServiceKind) :
    kind.missingMessage = "at least one " ++ kind.noun ++ " required" := by
  cases kind <;> decide

end ServiceKind

section Registry

variable {P L A : Type}

/-- The services of one kind. -/
def Registry.shelf (r : Registry P L A) : (kind : ServiceKind) → Shelf (kind.Of P L A)
  | .pins => r.pins
  | .listens => r.listens
  | .accounts => r.accounts

/-- The registry after services were added one after the other. -/
def Registry.ofAdded (added : List (Registration P L A)) : Registry P L A :=
  added.foldl Registry.add .empty

/-- What is added to the services of one kind. -/
def Registration.addedTo? :
    Registration P L A → (kind : ServiceKind) → Option (String × kind.Of P L A)
  | .pins id service, .pins => some (id, service)
  | .listens id source, .listens => some (id, source)
  | .accounts id provider, .accounts => some (id, provider)
  | _, _ => none

/-- What was added of one kind, in that order. -/
def ofKind (added : List (Registration P L A)) (kind : ServiceKind) :
    List (String × kind.Of P L A) :=
  added.filterMap (·.addedTo? kind)

/-- The first kind, in the order in which they are looked for, of which nothing was added. -/
def firstMissing (added : List (Registration P L A)) : Option ServiceKind :=
  ServiceKind.order.find? fun kind => (ofKind added kind).isEmpty

/-- One addition is an addition to one shelf, and the others stay. -/
theorem Registry.shelf_add (r : Registry P L A) (x : Registration P L A) (kind : ServiceKind) :
    (r.add x).shelf kind = (x.addedTo? kind).elim (r.shelf kind) fun e =>
      (r.shelf kind).add e.1 e.2 := by
  cases x <;> cases kind <;> rfl

/-- The shelf of a kind is made of what was added of that kind. -/
theorem Registry.shelf_ofAdded (added : List (Registration P L A)) (kind : ServiceKind) :
    (Registry.ofAdded added).shelf kind = Shelf.ofAdded (ofKind added kind) := by
  induction added using List.reverseRecOn with
  | nil => cases kind <;> rfl
  | append_singleton added x ih =>
    have hstep : Registry.ofAdded (added ++ [x]) = (Registry.ofAdded added).add x := by
      rw [Registry.ofAdded, List.foldl_append]
      rfl
    have hkind : ofKind (added ++ [x]) kind = ofKind added kind ++ (x.addedTo? kind).toList := by
      rw [ofKind, List.filterMap_append]
      cases h : x.addedTo? kind <;> simp [h, ofKind]
    rw [hstep, Registry.shelf_add, ih, hkind]
    cases x.addedTo? kind with
    | none => simp
    | some e => exact (Shelf.ofAdded_concat _ e).symm

/-- So the whole registry is told by what was added of each kind. -/
theorem Registry.ofAdded_congr {added other : List (Registration P L A)}
    (h : ∀ kind, ofKind added kind = ofKind other kind) :
    Registry.ofAdded added = Registry.ofAdded other := by
  have hshelf : ∀ kind,
      (Registry.ofAdded added).shelf kind = (Registry.ofAdded other).shelf kind := by
    intro kind
    rw [Registry.shelf_ofAdded, Registry.shelf_ofAdded, h kind]
  show Registry.mk _ _ _ = Registry.mk _ _ _
  congr 1
  · exact hshelf .pins
  · exact hshelf .listens
  · exact hshelf .accounts

/-! ## Registries in use -/

/-- A registry comes into use as it is, unless a kind is missing. -/
theorem Registry.build_ofAdded (added : List (Registration P L A)) :
    (Registry.ofAdded added).build =
      (firstMissing added).elim (.ok (Registry.ofAdded added)) .error := by
  have hempty : ∀ kind, ((Registry.ofAdded added).shelf kind).entries.isEmpty =
      (ofKind added kind).isEmpty := by
    intro kind
    rw [Bool.eq_iff_iff, Registry.shelf_ofAdded, Shelf.entries_ofAdded_isEmpty, List.isEmpty_iff]
  have hpins := hempty .pins
  have hlistens := hempty .listens
  have haccounts := hempty .accounts
  simp only [Registry.shelf] at hpins hlistens haccounts
  unfold Registry.build firstMissing ServiceKind.order
  rw [hpins, hlistens, haccounts]
  -- both sides ask for pins first, then for listens, then for accounts
  cases h : (ofKind added .pins).isEmpty with
  | true => simp [h]
  | false =>
    cases h' : (ofKind added .listens).isEmpty with
    | true => simp [h, h']
    | false => cases h'' : (ofKind added .accounts).isEmpty <;> simp [h, h', h'']

theorem firstMissing_eq_none_iff {added : List (Registration P L A)} :
    firstMissing added = none ↔ ∀ kind, ofKind added kind ≠ [] := by
  have hall : ∀ kind, kind ∈ ServiceKind.order := by
    intro kind
    cases kind <;> decide
  simp [firstMissing, List.find?_eq_none, hall]

/-- What is found in a registry is what was added to it. -/
structure Registry.Finds (r : Registry P L A) (added : List (Registration P L A)) : Prop where
  under : ∀ kind id service, (r.shelf kind).find? (some id) = some service ↔
    IsLastUnder (ofKind added kind) id service
  nothing : ∀ kind id, (r.shelf kind).find? (some id) = none ↔
    ∀ e ∈ ofKind added kind, e.1 ≠ id
  standIn : ∀ kind, ∃ first service, (ofKind added kind).head?.map Prod.fst = some first ∧
    IsLastUnder (ofKind added kind) first service ∧ (r.shelf kind).find? none = some service

theorem Registry.finds_ofAdded {added : List (Registration P L A)}
    (h : ∀ kind, ofKind added kind ≠ []) : (Registry.ofAdded added).Finds added where
  under kind id service := by
    rw [Registry.shelf_ofAdded]
    exact Shelf.find?_ofAdded_eq_some_iff
  nothing kind id := by
    rw [Registry.shelf_ofAdded]
    exact Shelf.find?_ofAdded_eq_none_iff
  standIn kind := by
    rw [Registry.shelf_ofAdded]
    exact Shelf.find?_none_ofAdded (h kind)

/-- **What a registry finds.**  Whatever was added under whatever identifiers, a registry comes into
use if and only if something of each kind was added; otherwise the first kind that is missing is
named. Once in use it finds of each kind the service that was added last under an identifier, and
without one the service that was added last under the identifier that came first. All of it is told
by what was added of each kind, however the additions are mixed. -/
theorem registry_of_added (added : List (Registration P L A)) :
    ((∃ r, (Registry.ofAdded added).build = .ok r) ↔ ∀ kind, ofKind added kind ≠ []) ∧
      (∀ kind, (Registry.ofAdded added).build = .error kind ↔ firstMissing added = some kind) ∧
      (∀ kind : ServiceKind, kind.missingMessage = "at least one " ++ kind.noun ++ " required") ∧
      (∀ r, (Registry.ofAdded added).build = .ok r → r.Finds added) ∧
      ∀ other, (∀ kind, ofKind added kind = ofKind other kind) →
        (Registry.ofAdded added).build = (Registry.ofAdded other).build := by
  have hbuild := Registry.build_ofAdded added
  refine ⟨?_, ?_, ServiceKind.missingMessage_eq, ?_, ?_⟩
  · rw [hbuild, ← firstMissing_eq_none_iff]
    cases firstMissing added <;> simp
  · intro kind
    rw [hbuild]
    cases firstMissing added <;> simp
  · intro r hr
    cases hmissing : firstMissing added with
    | none =>
      rw [hbuild, hmissing] at hr
      rw [← Except.ok.inj hr]
      exact Registry.finds_ofAdded (firstMissing_eq_none_iff.mp hmissing)
    | some kind =>
      rw [hbuild, hmissing] at hr
      exact nomatch hr
  · intro other hother
    rw [Registry.ofAdded_congr hother]

end Registry

/-! ## One registry -/

/-- Two services for pins, the first of them replaced later, with one of each other kind between. -/
def mixedAdditions : List (Registration Nat Nat Nat) :=
  [.accounts "c" 1, .pins "a" 2, .pins "b" 3, .listens "a" 4, .pins "a" 5]

/-- The replaced service is found no more, neither under its identifier nor without one. -/
theorem registry_of_mixedAdditions :
    ∃ r, (Registry.ofAdded mixedAdditions).build = .ok r ∧
      r.pins.find? (some "a") = some 5 ∧ r.pins.find? (some "b") = some 3 ∧
      r.pins.find? (some "c") = none ∧ r.pins.find? none = some 5 ∧
      r.listens.find? none = some 4 ∧ r.accounts.find? (some "a") = none := by
  obtain ⟨hbuilds, -, -, hfinds, -⟩ := registry_of_added mixedAdditions
  obtain ⟨r, hr⟩ : ∃ r, (Registry.ofAdded mixedAdditions).build = .ok r := by
    apply hbuilds.mpr
    intro kind
    cases kind <;> decide
  obtain ⟨hunder, hnothing, hstandIn⟩ := hfinds r hr
  have hfound : r.pins.find? (some "a") = some 5 :=
    (hunder .pins "a" 5).mpr ⟨[("a", 2), ("b", 3)], [], rfl, by simp⟩
  refine ⟨r, hr, hfound, ?_, ?_, ?_, ?_, ?_⟩
  · exact (hunder .pins "b" 3).mpr ⟨[("a", 2)], [("a", 5)], rfl, by simp⟩
  · exact (hnothing .pins "c").mpr (by decide)
  · obtain ⟨first, service, hfirst, hlast, hservice⟩ := hstandIn .pins
    obtain rfl : "a" = first := Option.some.inj hfirst
    have hsame : some 5 = some service := hfound.symm.trans ((hunder .pins "a" service).mpr hlast)
    exact hservice.trans hsame.symm
  · obtain ⟨first, service, hfirst, hlast, hservice⟩ := hstandIn .listens
    obtain rfl : "a" = first := Option.some.inj hfirst
    have hlisten : r.listens.find? (some "a") = some 4 :=
      (hunder .listens "a" 4).mpr ⟨[], [], rfl, by simp⟩
    have hsame : some 4 = some service :=
      hlisten.symm.trans ((hunder .listens "a" service).mpr hlast)
    exact hservice.trans hsame.symm
  · exact (hnothing .accounts "a").mpr (by decide)

end PinBoard
