import QueryRelay.ParameterBatch

/-!
# What is in the statement of a bulk iteration

A bulk iteration is built in two places: from a batch of parameter sets, and from a statement that feeds it.  Both set
six parameters one after another, and none of them takes the place of another.

* `BulkIteration.parameters` — the six parameters, which `ParameterBatch.toStatement` arrives at.
* `BulkIteration.parts?`, `ParameterBatch.read?` — reading the parameters by their names, whatever else there is.
* `parameter_batch_renderings` — **the two ways agree**, up to text and flag so do the two modes, and nothing is lost:
  batch and options can be read from the parameters again.
-/

namespace QueryRelay

/-! ## Reading by name -/

namespace Json

def asText? : Json → Option String
  | .str text => some text
  | _ => none

def asBool? : Json → Option Bool
  | .bool b => some b
  | _ => none

def asCount? : Json → Option Nat
  | .int i => if 0 ≤ i then some i.toNat else none
  | _ => none

def asObject? : Json → Option Fields
  | .object fields => some fields
  | _ => none

def asObjects? : Json → Option (List Fields)
  | .array items => items.mapM asObject?
  | _ => none

theorem asCount?_ofNat (n : Nat) : asCount? (.ofNat n) = some n := by
  simp [Json.ofNat, asCount?]

theorem asObjects?_objects (sets : List Fields) : asObjects? (.array (sets.map .object)) = some sets := by
  show (sets.map object).mapM asObject? = some sets
  induction sets with
  | nil => rfl
  | cons set rest ih =>
    rw [List.map_cons, List.mapM_cons, ih]
    rfl

end Json

namespace BulkIteration

/-- The parameters of a bulk iteration, ascending by name. -/
def parameters (options : BatchOptions) (iterable batched : String) (iterateParams : Fields) : Fields :=
  [("batched_query", .str batched),
    ("chunk_size", .ofNat options.batchSize),
    ("execute_chunks_in_parallel", .bool options.parallel),
    ("iterable_query", .str iterable),
    ("iterate_params", .object iterateParams),
    ("retries_per_chunk", .ofNat options.maxRetries)]

/-- What a bulk iteration is made of: its options, the two queries, and the parameters of the first. -/
def parts? (fields : Fields) : Option (BatchOptions × String × String × Fields) := do
  let batchSize ← (← fields.get? "chunk_size").asCount?
  let parallel ← (← fields.get? "execute_chunks_in_parallel").asBool?
  let maxRetries ← (← fields.get? "retries_per_chunk").asCount?
  let iterable ← (← fields.get? "iterable_query").asText?
  let batched ← (← fields.get? "batched_query").asText?
  let iterateParams ← (← fields.get? "iterate_params").asObject?
  some (⟨batchSize, parallel, maxRetries⟩, iterable, batched, iterateParams)

theorem parts?_parameters (options : BatchOptions) (iterable batched : String) (iterateParams : Fields) :
    parts? (parameters options iterable batched iterateParams) = some (options, iterable, batched, iterateParams) := by
  simp [parts?, parameters, Fields.get?, List.lookup_cons, Json.asCount?_ofNat, Json.asBool?, Json.asText?,
    Json.asObject?]

end BulkIteration

namespace ParameterBatch

theorem parameters_toStatement (batch : ParameterBatch) (mode : ProtocolMode) (options : BatchOptions) :
    (batch.toStatement mode options).parameters =
      BulkIteration.parameters options BulkIteration.unwindIterable batch.templateText
        [("batched_parameter_sets", .array (batch.parameterSets.map .object))] := by
  cases mode <;> rfl

/-- The batch and the options that parameters carry. -/
def read? (fields : Fields) : Option (ParameterBatch × BatchOptions) := do
  let (options, _, batched, iterateParams) ← BulkIteration.parts? fields
  let sets ← (← iterateParams.get? "batched_parameter_sets").asObjects?
  some (⟨batched, sets⟩, options)

theorem read?_toStatement (batch : ParameterBatch) (mode : ProtocolMode) (options : BatchOptions) :
    read? (batch.toStatement mode options).parameters = some (batch, options) := by
  rw [parameters_toStatement, read?, BulkIteration.parts?_parameters]
  simp [Fields.get?, Json.asObjects?_objects]

/-- Equality of batches; floating-point numbers in the sets are compared as numbers. -/
def same (a b : ParameterBatch) : Bool :=
  a.templateText == b.templateText && Json.sameItems (a.parameterSets.map .object) (b.parameterSets.map .object)

theorem toStatement_injective (mode : ProtocolMode) {batch other : ParameterBatch} {options others : BatchOptions}
    (h : batch.toStatement mode options = other.toStatement mode others) : batch = other ∧ options = others := by
  have hread : some (batch, options) = some (other, others) := by
    rw [← read?_toStatement batch mode options, h, read?_toStatement]
  exact Prod.mk.inj (Option.some.inj hread)

/-- Statements of one mode are equal exactly if the batches and the options are. -/
theorem same_toStatement (mode : ProtocolMode) (batch other : ParameterBatch) (options others : BatchOptions) :
    (batch.toStatement mode options).same (other.toStatement mode others) = true ↔
      batch.same other = true ∧ options = others := by
  have htext : (batch.toStatement mode options).text = (other.toStatement mode others).text := by
    cases mode <;> rfl
  rw [Statement.same, htext, parameters_toStatement, parameters_toStatement, same]
  obtain ⟨batchSize, parallel, maxRetries⟩ := options
  obtain ⟨otherSize, otherParallel, otherRetries⟩ := others
  simp only [BulkIteration.parameters, Json.sameFields, Json.same, Json.ofNat, beq_self_eq_true, Bool.true_and,
    Bool.and_true, Bool.and_eq_true, beq_iff_eq, Int.ofNat_inj, BatchOptions.mk.injEq]
  constructor
  · rintro ⟨htemplate, hsize, hparallel, hsets, hretries⟩
    exact ⟨⟨htemplate, hsets⟩, hsize, hparallel, hretries⟩
  · rintro ⟨⟨htemplate, hsets⟩, hsize, hparallel, hretries⟩
    exact ⟨htemplate, hsize, hparallel, hsets, hretries⟩

end ParameterBatch

/-- **The ways to build a bulk iteration agree, and lose nothing.**  A batch that the engine iterates over is the plain
statement that unwinds the sets, feeding the template; one that is unwound has another text and no flag; and what a
batch was can be read from the parameters, so that different batches and options never give the same statement. -/
theorem parameter_batch_renderings (batch : ParameterBatch) (options : BatchOptions) :
    let unwind := Statement.plain "UNWIND $batched_parameter_sets AS params RETURN params"
      [("batched_parameter_sets", .array (batch.parameterSets.map .object))]
    let iterated := batch.toStatement .serverIterated options
    iterated = unwind.feed batch.templateText options ∧ iterated.isBatchProtocol = true ∧
      batch.toStatement .clientUnwound options =
        { iterated with text := BulkIteration.clientUnwoundText, isBatchProtocol := false } ∧
      iterated.text ≠ BulkIteration.clientUnwoundText ∧
      (∀ mode, ParameterBatch.read? (batch.toStatement mode options).parameters = some (batch, options)) ∧
      ∀ mode other others,
        (batch.toStatement mode options = other.toStatement mode others ↔ batch = other ∧ options = others) ∧
        ((batch.toStatement mode options).same (other.toStatement mode others) = true ↔
          batch.same other = true ∧ options = others) := by
  intro unwind iterated
  refine ⟨rfl, rfl, rfl, ?text, fun mode => ParameterBatch.read?_toStatement batch mode options,
    fun mode other others => ⟨⟨ParameterBatch.toStatement_injective mode, ?equal⟩,
      ParameterBatch.same_toStatement mode batch other options others⟩⟩
  case text =>
    show BulkIteration.serverIteratedText ≠ BulkIteration.clientUnwoundText
    decide
  case equal =>
    rintro ⟨rfl, rfl⟩
    rfl

end QueryRelay
