import PinBoard.Proofs.Json.Codec
import PinBoard.Wire.Alert

/-!
# Alerts, written and read

An alert and its kind are read back from what is written of them.
-/

namespace PinBoard

open Json

/-! ## Kinds -/

/-- **Round trip of kinds.** -/
theorem AlertKind.restores : Restores AlertKind.decode AlertKind.toJson where
  isWritable k := restores_text.isWritable k.name
  ne_null k := restores_text.ne_null k.name
  read k := by
    cases k with
    | success | info | warning | danger => rfl

/-! ## Alerts -/

/-- The number of an alert is read back. -/
theorem Alert.restores_id :
    Restores (fun tree => (uint64 tree).map UInt64.ofNat) .ofUInt64 := by
  refine restores_ofInt fun n => ?_
  rw [uint64_ofInt (toNat_le_maxUnsigned n), Except.map, UInt64.ofNat_toNat]

/-- An alert as a record. -/
def Alert.layout : Layout Alert where
  schema := Alert.schema
  fields :=
    { toFun a := fun
        | .id => a.id
        | .kind => a.kind
        | .title => a.title
        | .message => a.message
      invFun := Alert.ofRecord
      left_inv _ := rfl
      right_inv r := by
        funext f
        cases f <;> rfl }
  keysDiffer f := by cases f <;> rfl
  nodup := by decide
  pass_eq := rfl

/-- How an alert is written, field by field. -/
def Alert.written : (f : Alert.Field) → f.Value → Option Tree
  | .id => fun n => some (.ofUInt64 n)
  | .kind => fun k => some k.toJson
  | .title => fun s => some (.ofString s)
  | .message => fun s => some (.ofString s)

/-- **Round trip of alerts.** -/
theorem Alert.restores : Restores Alert.decode Alert.toJson := by
  refine Alert.layout.restores (w := Alert.written) fun f => ?_
  cases f with
  | id => exact Alert.restores_id.always _
  | kind => exact AlertKind.restores.always _
  | title | message => exact restores_text.always _

end PinBoard
