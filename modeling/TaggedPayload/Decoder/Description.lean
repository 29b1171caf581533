import TaggedPayload.Decoder.Basic
import TaggedPayload.Text.Quoted

/-!
# Descriptions of decoders

The text that shows a decoder to a developer: its sort and its settings. Functions have no text; an
ellipsis stands for them. A composite shows the names of its members.
-/

set_option autoImplicit false

namespace TaggedPayload

def Bytes.listing (bs : Bytes) : String :=
  Text.bracketed (bs.map fun b => Text.natText b.toNat)

def AccountKey.description (k : AccountKey) : String :=
  "Pubkey(" ++ Bytes.listing k.bytes ++ ")"

def Tag.description (t : Tag) : String :=
  "Discriminator(" ++ Bytes.listing t.bytes ++ ")"

def settings (sort : String) (entries : List (String × String)) (more : Bool) : String :=
  sort ++ " \x7b " ++
    ", ".intercalate (entries.map (fun e => e.1 ++ ": " ++ e.2) ++ if more then [".."] else []) ++
    " \x7d"

def Decoder.description : Decoder → String
  | function d =>
    settings "FunctionDecoder"
      [("name", Text.quoted d.name), ("program_id", d.program.description)] true
  | gated d =>
    settings "LengthGatedDecoder"
      [("name", Text.quoted d.name), ("program_id", d.program.description),
        ("min_length", Text.natText d.least)] true
  | tagged d =>
    settings "DiscriminatorDecoder"
      [("name", Text.quoted d.name), ("program_id", d.program.description),
        ("discriminator", d.tag.description)] true
  | composite n p ds =>
    settings "CompositeDecoder"
      [("name", Text.quoted n), ("program_id", p.description),
        ("members", Text.bracketed (ds.map fun d => Text.quoted d.name))] false

end TaggedPayload
