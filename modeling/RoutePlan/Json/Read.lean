import RoutePlan.Json.Source
import RoutePlan.Json.Token

/-!
# Reading a value from its text

The tokens are consumed one by one by a `Builder`, which knows the brackets still open and what may
follow. It stops at the first token that may not stand where it does, and leaves what it has read so
far (`Builder.result`); all of a text together is a `Source`. A text is a value if nothing in it
goes wrong and every part of it has a value (`Json.read?`). Brackets may be nested
`Builder.depthLimit` deep: deeper ones are read, but have no value.
-/

namespace RoutePlan

/-- A bracket whose value is being read: the items or members done, the last one first, and the key
that waits for its value. -/
inductive Frame
  | array (done : List Source)
  | object (done : List (Option String × Source)) (key : Option String)

/-- What may follow next, inside the frames still open. -/
inductive Builder
  | value (frames : List Frame)
  | firstItem (frames : List Frame)
  | afterItem (done : List Source) (frames : List Frame)
  | firstKey (frames : List Frame)
  | key (done : List (Option String × Source)) (frames : List Frame)
  | colon (done : List (Option String × Source)) (key : Option String) (frames : List Frame)
  | afterMember (done : List (Option String × Source)) (frames : List Frame)
  | complete (value : Source)

namespace Builder

/-- How deep brackets may be nested. -/
def depthLimit : Nat := 127

/-- A finished value goes to the innermost open frame. -/
def deliver (value : Source) : List Frame → Builder
  | [] => complete value
  | .array done :: frames => afterItem (value :: done) frames
  | .object done name :: frames => afterMember ((name, value) :: done) frames

/-- A bracket is closed; it has no value if too many others are around it. -/
def close (value : Source) (frames : List Frame) : Builder :=
  if (frames.drop (depthLimit - 1)).isEmpty then deliver value frames
  else deliver .unreadable frames

/-- A token where a value must start. -/
def startValue (frames : List Frame) : Token → Option Builder
  | .null => some (deliver .null frames)
  | .bool b => some (deliver (.bool b) frames)
  | .num n => some (deliver (n.elim .unreadable .num) frames)
  | .str s => some (deliver (s.elim .unreadable .str) frames)
  | .beginArray => some (firstItem frames)
  | .beginObject => some (firstKey frames)
  | _ => none

/-- The builder after one token, or `none` if the token may not stand there. -/
def step : Builder → Token → Option Builder
  | value frames, token => startValue frames token
  | firstItem frames, .endArray => some (close (.arr [] .closed) frames)
  | firstItem frames, token => startValue (.array [] :: frames) token
  | afterItem done frames, .comma => some (value (.array done :: frames))
  | afterItem done frames, .endArray => some (close (.arr done.reverse .closed) frames)
  | firstKey frames, .endObject => some (close (.obj [] .closed) frames)
  | firstKey frames, .str k => some (colon [] k frames)
  | key done frames, .str k => some (colon done k frames)
  | colon done k frames, .colon => some (value (.object done k :: frames))
  | afterMember done frames, .comma => some (key done frames)
  | afterMember done frames, .endObject => some (close (.obj done.reverse .closed) frames)
  | _, _ => none

/-- The builder after the tokens up to the first one that may not stand where it does, and whether
there is no such token. -/
def run (b : Builder) : List Token → Builder × Bool
  | [] => (b, true)
  | token :: rest =>
    match b.step token with
    | some b => run b rest
    | none => (b, false)

/-- A value at which the text goes wrong, inside the frames still open. -/
def abandon (last : Source) : List Frame → Source
  | [] => last
  | .array done :: frames => abandon (.arr (last :: done).reverse .broken) frames
  | .object done name :: frames => abandon (.obj ((name, last) :: done).reverse .broken) frames

/-- What has been read. -/
def result : Builder → Source
  | value frames => abandon .broken frames
  | firstItem frames => abandon (.arr [] .broken) frames
  | afterItem done frames => abandon (.arr done.reverse .broken) frames
  | firstKey frames => abandon (.obj [] .broken) frames
  | key done frames | afterMember done frames => abandon (.obj done.reverse .broken) frames
  | colon done k frames => abandon (.obj ((k, .broken) :: done).reverse .broken) frames
  | complete read => read

end Builder

/-- What can be read from a text, and whether nothing else follows. -/
def Source.read (text : String) : Source × Bool :=
  let (tokens, all) := Token.scan [] text.toList
  let (builder, fits) := Builder.run (.value []) tokens
  (builder.result, all && fits)

/-- The value written in a text, or `none` if the text is not the text of a value. -/
def Json.read? (text : String) : Option Json :=
  let (source, alone) := Source.read text
  if alone then source.json? else none

end RoutePlan
