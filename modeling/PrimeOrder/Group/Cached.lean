import PrimeOrder.Group.Query
import PrimeOrder.Window.Table

namespace PrimeOrder

/-- The tables of a group, each beside the base it was built for. No two bases are equal. -/
abbrev Cache := List (Element × Window.Table Element)

namespace Cache

/-- The table of a base. -/
def table? (cache : Cache) (e : Element) : Option (Window.Table Element) :=
  (cache.find? fun entry => entry.1.same e).map Prod.snd

/-- Whether a base has a table. -/
def hasTable (cache : Cache) (e : Element) : Bool :=
  cache.any fun entry => entry.1.same e

/-- Whether it can be told if a base has a table. -/
def comparable (cache : Cache) (e : Element) : Bool :=
  cache.all fun entry => entry.1.comparable e

/-- The cache with the table of a base put in or replaced. -/
def store (cache : Cache) (e : Element) (table : Window.Table Element) : Cache :=
  if cache.hasTable e then
    cache.map fun entry => if entry.1.same e then (entry.1, table) else entry
  else cache ++ [(e, table)]

/-- The cache without the table of a base. -/
def release (cache : Cache) (e : Element) : Cache :=
  cache.filter fun entry => !entry.1.same e

end Cache

/-- A group and the tables it keeps. -/
structure CachedGroup where
  group : Group
  cache : Cache
  deriving Repr

/-- What can be asked of a group that keeps tables. -/
inductive Call where
  | query (q : Query)
  | random
  | cachedPower (v : Value) (k : Int)
  | release (v : Value)
  | hasTable (v : Value)
  | cacheSize
  deriving Repr

/-- What comes of a call: the outcome, the group after it and the source of random numbers after
    it. -/
structure Reply (σ : Type) where
  outcome : Except Error Value
  group : CachedGroup
  source : σ

namespace CachedGroup

/-- The table of a base, new if there is none. -/
def tableOf (G : CachedGroup) (e : Element) : Window.Table Element :=
  (G.cache.table? e).getD
    (.empty e (Window.widthFor (Integer.bitLength G.group.order)))

/-- A power by the table of the base. The table is kept, and grows with the exponents. -/
def cachedPower (G : CachedGroup) (v : Value) (k : Int) : Except Error Element × CachedGroup :=
  match G.group.check v with
  | .error e => (.error e, G)
  | .ok base =>
    let (power, table) := (G.tableOf base).power G.group.law (G.group.reduceExponent k)
    (power, { G with cache := G.cache.store base table })

/-- The base that a value is, if it is an element. Only a value that cannot change and that the
    bases can be compared with is looked up. -/
def lookUp (G : CachedGroup) (v : Value) : Except Error (Option Element) :=
  match v with
  | .element e =>
    if G.cache.comparable e then .ok (some e)
    else .error (.noAttribute "NoneType" "get_parameters")
  | _ => v.lookedUp.map fun _ => none

/-- The group without the table of a base, if it has one. Nothing is looked up where there is no
    table. -/
def release (G : CachedGroup) (v : Value) : Except Error CachedGroup :=
  if G.cache.isEmpty then .ok G
  else
    (G.lookUp v).map fun
      | some e => { G with cache := G.cache.release e }
      | none => G

/-- Whether a value is a base that has a table. -/
def hasTable (G : CachedGroup) (v : Value) : Except Error Bool :=
  (G.lookUp v).map fun base => base.any G.cache.hasTable

/-- What comes of a call. A call that the group refuses changes neither the tables nor the
    source. -/
def call {σ : Type} [RandomSource σ] (isPrime : PrimalityTest) (G : CachedGroup) (c : Call)
    (source : σ) : Reply σ :=
  match c with
  | .query q => ⟨q.answer isPrime G.group, G, source⟩
  | .random =>
    match G.group.random source with
    | .error e => ⟨.error e, G, source⟩
    | .ok (e, next) => ⟨.ok (.element e), G, next⟩
  | .cachedPower v k =>
    let (power, after) := G.cachedPower v k
    ⟨power.map .element, after, source⟩
  | .release v =>
    match G.release v with
    | .error e => ⟨.error e, G, source⟩
    | .ok after => ⟨.ok .null, after, source⟩
  | .hasTable v => ⟨(G.hasTable v).map .bool, G, source⟩
  | .cacheSize => ⟨.ok (.int G.cache.length), G, source⟩

end CachedGroup

end PrimeOrder
