import WorkspaceControl.Wire.Shape

/-!
# Records from JSON values

A JSON value decodes to a shape member by member, in the order the value has them; the first fault
met is reported, missing fields last. Members without a field are ignored. A record may also be an
array of its fields in order.

Values come from two sources that differ in small ways: the value of a whole text, and members that
were set aside while a text was read (`Origin`).
-/

namespace WorkspaceControl.Wire

/-- Where a value comes from. -/
inductive Origin where
  /-- The value of a whole text. -/
  | whole
  /-- A part of a text that was set aside, with repeated keys still in it. -/
  | setAside
  deriving DecidableEq, Repr

def toText : Json → Except Mismatch String
  | .string s => .ok s
  | v => .error (.wrongType v.found .string)

/-- The truth value of a boolean. -/
def toBoolean : Json → Except Mismatch Bool
  | .boolean b => .ok b
  | v => .error (.wrongType v.found .boolean)

/-- The number of an integer below 2³². -/
def toWord : Json → Except Mismatch UInt32
  | .number (.integer n h) =>
    if 0 ≤ n ∧ n < 0x100000000 then .ok (UInt32.ofNat n.toNat)
    else .error (.wrongValue (.number (.integer n h)) .word)
  | v => .error (.wrongType v.found .word)

def toUnit : Json → Except Mismatch Unit
  | .null => .ok ()
  | v => .error (.wrongType v.found .unit)

/-- The position of a name among the names of a choice. -/
def toVariant (variants : List String) (name : String) : Except Mismatch (Fin variants.length) :=
  match variants.finIdxOf? name with
  | some i => .ok i
  | none => .error (.unknownVariant name variants)

/-- One of several names, either by itself or as the only key of an object that holds nothing. -/
def toChoice (origin : Origin) (variants : List String) :
    Json → Except Mismatch (Fin variants.length)
  | .string name => toVariant variants name
  | .object [(name, value)] => do
    let i ← toVariant variants name
    match origin, value with
    -- Among members set aside, an empty object beside a name counts as nothing.
    | .setAside, .object [] => return i
    | _, _ =>
      toUnit value
      return i
  | .object _ => .error (.wrongValue .map .singleKey)
  | v => .error (.wrongType v.found .choice)

/-- Texts under keys. -/
def toDictionary : Json → Except Mismatch (Dictionary String)
  | .object members =>
    members.foldlM (fun d (key, value) => do return d.insert key (← toText value)) Dictionary.empty
  | v => .error (.wrongType v.found .map)

def toList {α : Type} (item : Json → Except Mismatch α) : Json → Except Mismatch (List α)
  | .array items => items.mapM item
  | v => .error (.wrongType v.found .sequence)

/-- A value that may be `null`. -/
def toOptional {α : Type} (value : Json → Except Mismatch α) : Json → Except Mismatch (Option α)
  | .null => .ok none
  | v => some <$> value v

/-- What a field holds. -/
def Presence.ofJson {α : Type} (value : Json → Except Mismatch α) :
    (p : Presence) → Json → Except Mismatch (p.Data α)
  | .required => value
  | .optional _ _ => toOptional value
  | .defaulted => toList value

/-- What a list should have been like that goes on after all `count` fields of a record. -/
def overlong (origin : Origin) (count length : Nat) : Mismatch :=
  match origin with
  | .whole => .wrongLength length .fewerItems
  | .setAside => .wrongLength length (.items count)

mutual

def Shape.ofJson (origin : Origin) : (shape : Shape) → Json → Except Mismatch shape.Data
  | .string, v => toText v
  | .boolean, v => toBoolean v
  | .word, v => toWord v
  | .choice variants, v => toChoice origin variants v
  | .list item, v => toList (item.ofJson origin) v
  | .dictionary, v => toDictionary v
  | .record title fields, v =>
    match v with
    | .array items => do
      let (data, surplus) ← fields.ofItems origin (.recordItems title fields.count) 0 items
      if surplus = 0 then return data
      else .error (overlong origin fields.count items.length)
    | .object members => do
      let slots ← members.foldlM (fun slots (key, value) => fields.fill origin slots key value)
        fields.unfilled
      fields.finish slots
    | v => .error (.wrongType v.found (.record title))
termination_by structural shape => shape

/-- Decodes the items of an array form, and counts the items left over. -/
def Fields.ofItems (origin : Origin) (due : Expected) : (fields : Fields) → (index : Nat) →
    List Json → Except Mismatch (fields.Data × Nat)
  | .nil, _, items => .ok ((), items.length)
  | .cons name presence shape rest, index, items =>
    match items with
    | [] => do return (← (Fields.cons name presence shape rest).ofNothing due index, 0)
    | item :: items => do
      let value ← presence.ofJson (shape.ofJson origin) item
      let (more, surplus) ← rest.ofItems origin due (index + 1) items
      return ((value, more), surplus)
termination_by structural fields => fields

/-- Decodes a member into the field of its name, if there is one. -/
def Fields.fill (origin : Origin) : (fields : Fields) → fields.Slots → String → Json →
    Except Mismatch fields.Slots
  | .nil, _, _, _ => .ok ()
  | .cons name presence shape rest, (slot, more), key, value =>
    if key = name then
      match slot with
      | some _ => .error (.duplicateField name)
      | none => do return (some (← presence.ofJson (shape.ofJson origin) value), more)
    else do return (slot, ← rest.fill origin more key value)
termination_by structural fields => fields

end

end WorkspaceControl.Wire
