import Multistage.Options.Text
import Multistage.Proofs.Json.Codec
/-!
# Which options survive being written

The object that is written for options has each of its keys once, and each member gives back what it was written for: the
name of a rule the rule, a flag the flag, and the infinity a double exactly if a number was written for it.  So options are
read back exactly if their infinity is finite, whatever codec writes and reads them, as long as it is faithful
(`ofTextBy?_written`).
-/
namespace Multistage
namespace Options

open Json

variable {codec : Codec}

/-- What is read for options that were written. -/
def readMembers (codec : Codec) (o : Options) : List (List UInt16 × Value) :=
  (o.members codec).map fun m => (units m.1, m.2.value)

theorem distinct_keys : units ruleKey ≠ units infinityKey ∧ units ruleKey ≠ units dropZerosKey ∧
    units infinityKey ≠ units dropZerosKey := by
  decide +kernel

theorem all_isPaired_readMembers (o : Options) : (o.readMembers codec).all (fun m => isPaired m.1) = true := by
  simp only [readMembers, members, List.map_cons, List.map_nil, List.all_cons, List.all_nil]
  decide +kernel

theorem rule?_name (r : MergeRule) : rule? (.text (units r.name)) = some r := by
  cases r <;> decide +kernel

theorem member?_rule (o : Options) (default : MergeRule) :
    member? (o.readMembers codec) ruleKey rule? default = some o.rule := by
  simp [member?, readMembers, members, Scalar.value, distinct_keys.1.symm, distinct_keys.2.1.symm, rule?_name]

theorem member?_infinity (o : Options) (default : Binary64) :
    member? (o.readMembers codec) infinityKey codec.toDouble? default =
      codec.toDouble? (codec.ofDouble o.infinity).value := by
  simp [member?, readMembers, members, distinct_keys.1, distinct_keys.2.2.symm]

theorem member?_dropZeros (o : Options) (default : Bool) :
    member? (o.readMembers codec) dropZerosKey bool? default = some o.dropZeros := by
  simp [member?, readMembers, members, Scalar.value, distinct_keys.2.1, distinct_keys.2.2, bool?]

/-- A double is read back exactly if a number was written for it. -/
theorem toDouble?_ofDouble (faithful : codec.Faithful) (x : Binary64) :
    codec.toDouble? (codec.ofDouble x).value = if x.isFinite then some x else none := by
  cases finite : x.isFinite with
  | true =>
    obtain ⟨d, written, back⟩ := faithful.finite x finite
    rw [written]
    exact back
  | false =>
    rw [faithful.notFinite x finite]
    exact faithful.null

theorem ofMembers?_readMembers (faithful : codec.Faithful) (o : Options) :
    ofMembers? codec (o.readMembers codec) = if o.infinity.isFinite then some o else none := by
  rw [ofMembers?, if_pos o.all_isPaired_readMembers]
  simp only [member?_rule, member?_infinity, member?_dropZeros, toDouble?_ofDouble faithful]
  split <;> rfl

/-- **Options are read back exactly if their infinity is finite**, and otherwise not at all. -/
theorem ofTextBy?_written (faithful : codec.Faithful) (o : Options) :
    ofTextBy? codec (o.toTextBy codec) = if o.infinity.isFinite then some o else none := by
  rw [ofTextBy?, toTextBy, faithful.object]
  exact ofMembers?_readMembers faithful o

/-- The defaults, with an infinity that is written in one digit. -/
theorem ofTextBy?_defaults : plain.Faithful ∧
    ({} : Options).toTextBy plain = "\x7b\"combine_rule\":\"replace\",\"infinity\":1e30,\"drop_explicit_zeros\":true\x7d" ∧
    ofTextBy? plain (({} : Options).toTextBy plain) =
      if ({} : Options).infinity.isFinite then some {} else none :=
  ⟨faithful_plain, by decide +kernel, ofTextBy?_written faithful_plain {}⟩

/-- The options of a program that normalizes nothing are not read back. -/
theorem ofTextBy?_unbounded : plain.Faithful ∧ ({ infinity := .posInf } : Options).infinity.isNaN = false ∧
    ({ infinity := .posInf } : Options).toTextBy plain =
      "\x7b\"combine_rule\":\"replace\",\"infinity\":null,\"drop_explicit_zeros\":true\x7d" ∧
    ofTextBy? plain (({ infinity := .posInf } : Options).toTextBy plain) = none :=
  ⟨faithful_plain, by decide +kernel, by decide +kernel, by decide +kernel⟩

end Options
end Multistage
