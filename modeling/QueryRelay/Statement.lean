import QueryRelay.Codec.Record

/-!
# Statements

A statement is a text with named parameters.  Its flag says what shape of answer to expect: the single aggregated row
of a bulk iteration, or ordinary rows.  `Statement.same` compares text and parameters only.
-/

namespace QueryRelay

/-- A statement for the remote engine. -/
structure Statement where
  text : String
  parameters : Fields
  /-- Whether the answer is the aggregated row of a bulk iteration. -/
  isBatchProtocol : Bool := false
deriving Repr, Inhabited

namespace Statement

/-- A plain statement. -/
def plain (text : String) (parameters : Fields) : Statement := ⟨text, parameters, false⟩

/-- A statement whose answer is the aggregated row of a bulk iteration. -/
def batchProtocol (text : String) (parameters : Fields) : Statement := ⟨text, parameters, true⟩

/-- A plain statement from name and value pairs; the last pair of a name wins. -/
def ofPairs (text : String) (pairs : List (String × Json)) : Statement := plain text (Fields.ofPairs pairs)

/-- Equality of statements, the flag aside. -/
def same (a b : Statement) : Bool := a.text == b.text && Json.sameFields a.parameters b.parameters

def codec : Codec Statement :=
  RecordReader.codec
    (Statement.mk <$> .field "text" .string .refused <*> .field "parameters" .fields .refused
      <*> .field "is_batch_protocol" .bool (.default false))
    "Statement"
    fun s =>
      .object
        [("text", .str s.text), ("parameters", .object s.parameters), ("is_batch_protocol", .bool s.isBatchProtocol)]

end Statement

end QueryRelay
