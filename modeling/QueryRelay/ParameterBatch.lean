import QueryRelay.Statement

/-!
# Parameter batches

A parameter batch is one mutation template with a list of parameter sets.  It becomes a statement in one of two ways:
*server-iterated*, a bulk iteration that the engine cuts into chunks and answers with one aggregated row, or
*client-unwound*, where the list travels as one parameter and every set gives a row of its own.  Any statement can also
feed a bulk iteration, with `Statement.feed`.
-/

namespace QueryRelay

/-- How a parameter batch travels. -/
inductive ProtocolMode where
  | serverIterated
  | clientUnwound
deriving Repr, DecidableEq, Inhabited

namespace ProtocolMode

def all : List ProtocolMode := [serverIterated, clientUnwound]

def name : ProtocolMode → String
  | serverIterated => "server_iterated"
  | clientUnwound => "client_unwound"

def codec : Codec ProtocolMode := .choice all name

end ProtocolMode

/-- How the engine cuts a bulk iteration into chunks. -/
structure BatchOptions where
  batchSize : Nat := 1000
  parallel : Bool := true
  maxRetries : Nat := 3
deriving Repr, DecidableEq, Inhabited

def BatchOptions.codec : Codec BatchOptions :=
  RecordReader.codec
    (BatchOptions.mk <$> .field "batch_size" .size .refused <*> .field "parallel" .bool .refused
      <*> .field "max_retries" .unsigned32 .refused)
    "BatchOptions"
    fun o =>
      .object
        [("batch_size", .ofNat o.batchSize), ("parallel", .bool o.parallel), ("max_retries", .ofNat o.maxRetries)]

/-- The parameters that carry the options. -/
def BatchOptions.parameters (o : BatchOptions) : Fields :=
  Fields.insert "chunk_size" (.ofNat o.batchSize) []
    |>.insert "execute_chunks_in_parallel" (.bool o.parallel)
    |>.insert "retries_per_chunk" (.ofNat o.maxRetries)

/-- One template applied to many parameter sets. -/
structure ParameterBatch where
  templateText : String
  parameterSets : List Fields
deriving Repr, Inhabited

namespace BulkIteration

/-- The statement that yields the parameter sets when they come from the client. -/
def unwindIterable : String := "UNWIND $batched_parameter_sets AS params RETURN params"

/-- The columns of the aggregated row. -/
def responseColumns : List String :=
  ["batches", "total", "timeTaken", "committedOperations", "failedOperations", "failedBatches", "retries",
    "errorMessages", "wasTerminated", "updateStatistics"]

/-- The text of a server-iterated statement. -/
def serverIteratedText : String :=
  let columns := String.intercalate ", " responseColumns
  "CALL apoc.periodic.iterate($iterable_query, $batched_query, \x7bbatchSize: $chunk_size, " ++
    "parallel: $execute_chunks_in_parallel, retries: $retries_per_chunk, params: $iterate_params\x7d) " ++
    "YIELD " ++ columns ++ " RETURN " ++ columns

/-- The text of a client-unwound statement. -/
def clientUnwoundText : String :=
  "UNWIND $iterate_params.batched_parameter_sets AS param " ++
    "CALL apoc.cypher.doIt($batched_query, \x7bparams: param\x7d) YIELD value RETURN value"

end BulkIteration

/-- Hands every row that a statement yields to `batched`, in chunks; the statement's own parameters travel along. -/
def Statement.feed (iterable : Statement) (batched : String) (options : BatchOptions) : Statement :=
  let parameters := options.parameters
    |>.insert "iterate_params" (.object iterable.parameters)
    |>.insert "batched_query" (.str batched)
    |>.insert "iterable_query" (.str iterable.text)
  .batchProtocol BulkIteration.serverIteratedText parameters

namespace ParameterBatch

def size (batch : ParameterBatch) : Nat := batch.parameterSets.length

def isEmpty (batch : ParameterBatch) : Bool := batch.parameterSets.isEmpty

/-- The batch as one statement; an empty batch is a statement that iterates over nothing. -/
def toStatement (batch : ParameterBatch) (mode : ProtocolMode) (options : BatchOptions) : Statement :=
  let sets := batch.parameterSets.map Json.object
  let iterateParams := Fields.insert "batched_parameter_sets" (.array sets) []
  let parameters := options.parameters
    |>.insert "iterate_params" (.object iterateParams)
    |>.insert "batched_query" (.str batch.templateText)
    |>.insert "iterable_query" (.str BulkIteration.unwindIterable)
  match mode with
  | .serverIterated => .batchProtocol BulkIteration.serverIteratedText parameters
  | .clientUnwound => .plain BulkIteration.clientUnwoundText parameters

def codec : Codec ParameterBatch :=
  RecordReader.codec
    (ParameterBatch.mk <$> .field "template_text" .string .refused
      <*> .field "parameter_sets" (.list .fields) .refused)
    "ParameterBatch"
    fun b =>
      .object
        [("template_text", .str b.templateText), ("parameter_sets", .array (b.parameterSets.map .object))]

end ParameterBatch

end QueryRelay
