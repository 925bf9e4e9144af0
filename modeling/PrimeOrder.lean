import PrimeOrder.Curve.Basic
import PrimeOrder.Curve.Point
import PrimeOrder.Error
import PrimeOrder.Field
import PrimeOrder.Group.Basic
import PrimeOrder.Group.Cached
import PrimeOrder.Group.Construction
import PrimeOrder.Group.Element
import PrimeOrder.Group.NaturalResidues
import PrimeOrder.Group.Points
import PrimeOrder.Group.Query
import PrimeOrder.Group.Residues
import PrimeOrder.Group.SignedResidues
import PrimeOrder.Integer.Engine
import PrimeOrder.Integer.Euclid
import PrimeOrder.Integer.Factorial
import PrimeOrder.Integer.Natural
import PrimeOrder.Integer.Power
import PrimeOrder.Integer.Primality
import PrimeOrder.Integer.Residuosity
import PrimeOrder.Integer.Root
import PrimeOrder.Integer.Size
import PrimeOrder.Number.Arithmetic
import PrimeOrder.Number.Basic
import PrimeOrder.Number.Encoding
import PrimeOrder.Octets.Basic
import PrimeOrder.Octets.Buffer
import PrimeOrder.Octets.Signed
import PrimeOrder.Params
import PrimeOrder.Random.Generator
import PrimeOrder.Random.Source
import PrimeOrder.Text.Blank
import PrimeOrder.Text.Decimal
import PrimeOrder.Text.DecimalDigit
import PrimeOrder.Text.Hexadecimal
import PrimeOrder.Text.Literal
import PrimeOrder.Text.Numeral
import PrimeOrder.Text.Printable
import PrimeOrder.Text.Quoted
import PrimeOrder.Value.Basic
import PrimeOrder.Value.Encoding
import PrimeOrder.Value.Equality
import PrimeOrder.Value.Literal
import PrimeOrder.Value.Operand
import PrimeOrder.Window.Powers
import PrimeOrder.Window.Simultaneous
import PrimeOrder.Window.Table
import PrimeOrder.Workspace
import PrimeOrder.Proofs.Curve.Addition
import PrimeOrder.Proofs.Curve.Multiple
import PrimeOrder.Proofs.Curve.PointCount
import PrimeOrder.Proofs.Curve.SmallCount
import PrimeOrder.Proofs.Curve.Weierstrass
import PrimeOrder.Proofs.Engine.Answers
import PrimeOrder.Proofs.Engine.Correspondence
import PrimeOrder.Proofs.Engine.Operations
import PrimeOrder.Proofs.Engine.Runs
import PrimeOrder.Proofs.Field
import PrimeOrder.Proofs.Group.Abelian
import PrimeOrder.Proofs.Group.Cache
import PrimeOrder.Proofs.Group.Cached
import PrimeOrder.Proofs.Group.Closed
import PrimeOrder.Proofs.Group.Cofactor
import PrimeOrder.Proofs.Group.Construction
import PrimeOrder.Proofs.Group.Equality
import PrimeOrder.Proofs.Group.Exponents
import PrimeOrder.Proofs.Group.Given
import PrimeOrder.Proofs.Group.Order
import PrimeOrder.Proofs.Group.Points
import PrimeOrder.Proofs.Group.Residues
import PrimeOrder.Proofs.Group.Simultaneous
import PrimeOrder.Proofs.Group.Subgroup
import PrimeOrder.Proofs.Integer.Euclid
import PrimeOrder.Proofs.Integer.Lucas
import PrimeOrder.Proofs.Integer.Natural
import PrimeOrder.Proofs.Integer.Power
import PrimeOrder.Proofs.Integer.Primality
import PrimeOrder.Proofs.Integer.Residuosity
import PrimeOrder.Proofs.Integer.Root
import PrimeOrder.Proofs.Integer.Size
import PrimeOrder.Proofs.Octets
import PrimeOrder.Proofs.Outcome
import PrimeOrder.Proofs.Window.Powers
import PrimeOrder.Proofs.Window.Simultaneous
import PrimeOrder.Proofs.Window.Table
import PrimeOrder.Proofs.Random
import PrimeOrder.Proofs.Group.Run
import PrimeOrder.Proofs.Group.Encoding
import PrimeOrder.Proofs.Group.Range
import PrimeOrder.Proofs.Group.Total
import PrimeOrder.Proofs.Group.Members
import PrimeOrder.Proofs.Group.Sendable
import PrimeOrder.Proofs.Curve.Copies
import PrimeOrder.Proofs.Curve.Moduli
import PrimeOrder.Proofs.Group.Bases
import PrimeOrder.Proofs.Group.Checks
import PrimeOrder.Proofs.Group.Congruence
import PrimeOrder.Proofs.Group.Foreign
import PrimeOrder.Proofs.Group.Held
import PrimeOrder.Proofs.Group.Search
import PrimeOrder.Proofs.Group.Twins
import PrimeOrder.Proofs.Window.Alike
import PrimeOrder.Proofs.Window.Growth
import PrimeOrder.Proofs.Workspace
import PrimeOrder.Proofs.Curve.OnCurve
import PrimeOrder.Proofs.Group.Codec
import PrimeOrder.Proofs.Group.Tables
import PrimeOrder.Proofs.Window.History
import PrimeOrder.Proofs.Curve.Weighted
import PrimeOrder.Proofs.Group.Image
import PrimeOrder.Proofs.Group.NamedCurves
import PrimeOrder.Proofs.Group.Sampling
import PrimeOrder.Proofs.Integer.Congruences
import PrimeOrder.Proofs.Integer.Turns
import PrimeOrder.Proofs.Number.Congruences
import PrimeOrder.Proofs.Number.Divisor
import PrimeOrder.Proofs.Number.Inverse
import PrimeOrder.Proofs.Curve.Lift
import PrimeOrder.Proofs.Field.Arithmetic
import PrimeOrder.Proofs.Number.Reciprocal
import PrimeOrder.Proofs.Number.Roots
import PrimeOrder.Proofs.Octets.Signed
import PrimeOrder.Proofs.Text.Numeral
import PrimeOrder.Proofs.Text.Blank
import PrimeOrder.Proofs.Text.Hexadecimal
import PrimeOrder.Proofs.Text.Decimal
import PrimeOrder.Proofs.Random.Generator
import PrimeOrder.Proofs.Random.Draws
import PrimeOrder.Proofs.Random.Cycle
import PrimeOrder.Proofs.Number.Powers
import PrimeOrder.Proofs.Octets.Buffer
import PrimeOrder.Proofs.Octets.Length
import PrimeOrder.Proofs.Integer.Bits
import PrimeOrder.Proofs.Number.Factorial
import PrimeOrder.Proofs.Integer.MillerRabin
import PrimeOrder.Proofs.Group.OrderInterval
