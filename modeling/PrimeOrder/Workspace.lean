import PrimeOrder.Group.Cached
import PrimeOrder.Group.Construction
import PrimeOrder.Octets.Buffer

namespace PrimeOrder

/-- A table of powers that is kept apart from the cache of its group. -/
structure LooseTable where
  group : Group
  width : Number
  table : Window.Table Value
  deriving Repr

/-- A group of the workspace and the position of the generator it draws from. -/
structure PlacedGroup where
  cached : CachedGroup
  source : Nat
  deriving Repr

/-- The buffers, generators, groups and tables made so far. The first generator is the one that is
    drawn from where none is named. -/
structure Workspace where
  buffers : Array Octets
  generators : Array Generator
  groups : Array PlacedGroup
  tables : Array LooseTable
  deriving Repr

namespace Workspace

/-- The position of the generator that is drawn from where none is named. -/
def unnamedSource : Nat := 0

/-- A workspace with nothing but a generator for those who name none. -/
def fresh (seed : Int) : Workspace :=
  ⟨#[], #[Generator.ofSeed seed], #[], #[]⟩

/-- Adds a buffer. -/
def addBuffer (W : Workspace) (content : Octets) : Value × Workspace :=
  (.buffer W.buffers.size content, { W with buffers := W.buffers.push content })

/-- A value as it is now: a buffer may have been copied into since it was read. -/
def current (W : Workspace) : Value → Value
  | .buffer position content => .buffer position (W.buffers.getD position content)
  | v => v

/-- Copies bytes into a value from `offset` on. Only a buffer takes them, and only if they fit. -/
def copyInto (W : Workspace) (source : Octets) (target : Value) (offset : Int) :
    Except Error Value × Workspace :=
  match target with
  | .buffer position content =>
    match Octets.copyInto source content offset with
    | .error e => (.error e, W)
    | .ok content =>
      (.ok (.buffer position content),
        { W with buffers := W.buffers.setIfInBounds position content })
  | .octets content =>
    match Octets.copyInto source content offset with
    | .error e => (.error e, W)
    | .ok _ => (.error (.unassignable target.sort), W)
  | v => (.error (.unassignable v.sort), W)

/-- The integer that seeds a generator: a number, or the one that a byte string stands for. -/
def seed : Value → Except Error Int
  | .number x => .ok x.toInt
  | .octets bytes => .ok (Octets.value bytes)
  | v => .error (.unsupportedOperands "&" v.sort "int")

/-- Adds a generator. -/
def addGenerator (W : Workspace) (v : Value) : Except Error Value × Workspace :=
  match seed v with
  | .error e => (.error e, W)
  | .ok seed =>
    (.ok (.generator W.generators.size),
      { W with generators := W.generators.push (.ofSeed seed) })

/-- Lets a generator draw. A draw that fails leaves it as it was. -/
def draw {α : Type} (W : Workspace) (position : Nat)
    (f : Generator → Except Error (α × Generator)) : Except Error α × Workspace :=
  match W.generators[position]? with
  | none => (.error .noSuchObject, W)
  | some g =>
    match f g with
    | .error e => (.error e, W)
    | .ok (a, next) => (.ok a, { W with generators := W.generators.setIfInBounds position next })

/-- Draws bits from a generator. -/
def drawBits (W : Workspace) (position : Nat) (count : Number) :
    Except Error Number × Workspace :=
  W.draw position fun g =>
    let (drawn, next) := g.bits count.toInt
    .ok (.resultOf [count] drawn, next)

/-- Draws a number from `low` to `high` from a generator. -/
def drawBetween (W : Workspace) (position : Nat) (low high : Number) :
    Except Error Number × Workspace :=
  W.draw position fun g => do
    let (drawn, next) ← g.between low.toInt high.toInt
    pure (.resultOf [low, high] drawn, next)

/-- Draws a number from a range that has to be non-empty. If no generator is named, the number is
    drawn as a distance from the low end of the range. -/
def integerBetween (W : Workspace) (position : Option Nat) (low high : Number) :
    Except Error Number × Workspace :=
  let operands := if position.isSome then [low, high] else [low]
  W.draw (position.getD unnamedSource) fun g => do
    let (drawn, next) ← RandomSource.integerBetween low.toInt high.toInt g
    pure (.resultOf operands drawn, next)

/-- The state of a generator. -/
def state (W : Workspace) (position : Nat) : Except Error Nat :=
  match W.generators[position]? with
  | none => .error .noSuchObject
  | some g => .ok g.state.toNat

/-- Builds a group that draws from the generator at a position. -/
def addGroup (isPrime : PrimalityTest) (W : Workspace) (backend : Value) (r : GroupRequest)
    (source : Nat) : Except Error Value × Workspace :=
  let id := W.groups.size
  match Backend.ofValue backend with
  | .error e => (.error e, W)
  | .ok backend =>
    match W.draw source (Group.build isPrime backend id r) with
    | (.error e, W) => (.error e, W)
    | (.ok group, W) =>
      (.ok (.group id), { W with groups := W.groups.push ⟨⟨group, []⟩, source⟩ })

/-- The group at a position. -/
def group (W : Workspace) (position : Nat) : Except Error Group :=
  match W.groups[position]? with
  | none => .error .noSuchObject
  | some placed => .ok placed.cached.group

/-- Calls a group, with the generator that it draws from. -/
def call (isPrime : PrimalityTest) (W : Workspace) (position : Nat) (c : Call) :
    Except Error Value × Workspace :=
  match W.groups[position]? with
  | none => (.error .noSuchObject, W)
  | some placed =>
    match W.generators[placed.source]? with
    | none => (.error .noSuchObject, W)
    | some source =>
      let reply := placed.cached.call isPrime c source
      (reply.outcome,
        { W with
          groups := W.groups.setIfInBounds position { placed with cached := reply.group }
          generators := W.generators.setIfInBounds placed.source reply.source })

/-- Adds a table of powers for the group at a position. -/
def addTable (W : Workspace) (position : Nat) (base : Value) (width : Number) :
    Except Error Value × Workspace :=
  match W.group position with
  | .error e => (.error e, W)
  | .ok group =>
    let loose : LooseTable := ⟨group, width, .empty base width.toInt⟩
    (.ok (.table W.tables.size), { W with tables := W.tables.push loose })

/-- A power by the table at a position. -/
def tablePower (W : Workspace) (position : Nat) (k : Int) : Except Error Value × Workspace :=
  match W.tables[position]? with
  | none => (.error .noSuchObject, W)
  | some loose =>
    let (power, table) := loose.table.power loose.group.checkedLaw k
    (power, { W with tables := W.tables.setIfInBounds position { loose with table } })

/-- The number of rows of the table at a position. -/
def rowCount (W : Workspace) (position : Nat) : Except Error Nat :=
  match W.tables[position]? with
  | none => .error .noSuchObject
  | some loose => .ok loose.table.rows.length

/-- The item at an index. A negative index counts from the end. -/
def itemAt {α : Type} (items : List α) (index : Int) : Option α :=
  let position := if index < 0 then index + items.length else index
  if position < 0 then none else items[position.toNat]?

/-- A row of the table at a position. The index has to be a machine word. -/
def row (W : Workspace) (position : Nat) (index : Number) : Except Error (List Value) :=
  match W.tables[position]? with
  | none => .error .noSuchObject
  | some loose =>
    if !Integer.fitsMachineWord index.toInt then
      .error (.doesNotFitIndex (Value.number index).sort)
    else
      match itemAt loose.table.rows index.toInt with
      | none => .error .noSuchRow
      | some row => .ok row

/-- The width of the windows of the table at a position. -/
def tableWidth (W : Workspace) (position : Nat) : Except Error Number :=
  match W.tables[position]? with
  | none => .error .noSuchObject
  | some loose => .ok loose.width

end Workspace

end PrimeOrder
