import PrimeOrder.Number.Basic

namespace PrimeOrder

/-- What sort of mistake a failure reports. -/
inductive ErrorKind where
  /-- An argument lies outside the domain of the operation. -/
  | invalidArgument
  /-- The arguments are well formed but no number answers the question. -/
  | arithmeticDomain
  /-- An operand was not made by the group that was asked to work on it. -/
  | groupMismatch
  /-- A byte string is too long to become one group element. -/
  | encodingLength
  /-- A group cannot be built from what was asked for. -/
  | construction
  /-- The arithmetic below the library refused a value. -/
  | value
  /-- The arithmetic below the library would have divided by zero. -/
  | zeroDivision
  /-- A number does not fit the width it is written in. -/
  | overflow
  /-- A position lies outside a sequence. -/
  | index
  /-- An operand is of a sort that the operation does not take. -/
  | operand
  /-- A part is asked for that its owner does not have. -/
  | missingPart
  deriving Repr, DecidableEq

/-- The causes of failure, each with what its message mentions. -/
inductive Error where
  -- An integer function is asked outside its domain.
  | logarithmOfNonPositive
  | negativeBitIndex
  | negativeExponent
  | nonPositiveModulus
  | rootOfNegative
  | nonPositiveRounds
  | emptyRange
  -- An integer and a byte string do not fit each other.
  | tooLargeForLength
  | bufferTooShort (length : Number) (needed : Nat)
  | conflictingSign
  | missingOctets
  -- A text is no numeral, or a range of bytes is not there.
  | notHexadecimal (quoted : String)
  | notDecimal (quoted : String)
  | negativeLength
  | sourceDoesNotFit
  | outsideSource
  -- A problem of congruences or roots is ill posed.
  | unequalCongruences
  | noCongruence
  | nonPositiveModuli
  | notThreeModFour (modulus : Number)
  | factorialOfNegative
  | factorialTooLarge (n : Number)
  -- Powers or elements are asked for in a way that names none.
  | unequalBases
  | noBase
  | unreducedExponent
  | notOneValue
  | notTwoCoordinates
  | outsideResidues (value : Number)
  | outsideSubgroup (value : Number)
  | notCoordinates (shown : String)
  | notOnCurve (x y : Number) (curve : String)
  | notResidueData (shown : String)
  | notPointData (shown : String)
  -- An element stands for no byte string, or a byte string for no element.
  | notEncoded
  | infinityEncodesNothing
  | noPointFound
  -- The numbers asked for do not exist.
  | noInverse (value modulus divisor : Number)
  | notCoprime
  | zeroHasNoInverse
  -- A group is handed what is not its own or is too long for it.
  | foreignElement (shown groupType : String)
  | encodingTooLong (length limit : Nat)
  -- A group cannot be built.
  | sizeAndParameters
  | unknownBackend (shown : String)
  | unknownResidueSet (quoted : String)
  | invalidResidueSet (quoted : String)
  | unsupportedParameters (shown : String)
  | unsupportedResidueSize (shown : String)
  | unsupportedCurveSize (shown : String)
  | unknownCurve (quoted : String)
  | curveForm (quoted : String)
  | invalidCurve (quoted : String)
  | searchExhausted (bits : Nat)
  -- The arithmetic below refuses a value.
  | negativeOctetCount
  | decimalTooLong
  | baseNotInvertible
  | symbolModulus
  | negativeNatural
  | emptyDraw
  | coefficientCount
  | negativeShift
  | exponentTooLarge
  | noInverseValue
  | symbolOfNonPositive
  | symbolOfEven
  | invalidDigits
  | notAscii
  | notIntegerLiteral (shown : String)
  | decimalTextTooLong (digits : Nat)
  -- The arithmetic below would divide by zero.
  | noReciprocal
  | moduloZero
  | zeroWindow
  -- A number, a position or an operand does not fit its place.
  | doesNotFitOctets
  | negativeOctets
  | doesNotFitWord
  | doesNotFitFloat
  | noSuchRow
  | doesNotFitIndex (sort : String)
  | noSuchObject
  | unassignable (sort : String)
  | notNumeric
  | notIntegral (sort : String)
  | unhashable (sort : String)
  | unordered (relation left right : String)
  | unsupportedOperands (operator left right : String)
  | noAttribute (sort part : String)
  deriving Repr, DecidableEq

namespace Error

/-- The sort of mistake behind a cause. -/
def kind : Error → ErrorKind
  | noInverse .. | notCoprime | zeroHasNoInverse => .arithmeticDomain
  | foreignElement .. => .groupMismatch
  | encodingTooLong .. => .encodingLength
  | sizeAndParameters | unknownBackend _ | unknownResidueSet _ | invalidResidueSet _
  | unsupportedParameters _ | unsupportedResidueSize _ | unsupportedCurveSize _ | unknownCurve _
  | curveForm _ | invalidCurve _ | searchExhausted _ => .construction
  | negativeOctetCount | decimalTooLong | baseNotInvertible | symbolModulus | negativeNatural
  | emptyDraw | coefficientCount | negativeShift | exponentTooLarge | noInverseValue
  | symbolOfNonPositive | symbolOfEven | invalidDigits | notAscii | notIntegerLiteral _
  | decimalTextTooLong _ | noSuchObject => .value
  | noReciprocal | moduloZero | zeroWindow => .zeroDivision
  | doesNotFitOctets | negativeOctets | doesNotFitWord | doesNotFitFloat => .overflow
  | noSuchRow | doesNotFitIndex _ => .index
  | unassignable _ | notNumeric | notIntegral _ | unhashable _ | unordered .. |
    unsupportedOperands .. => .operand
  | noAttribute .. => .missingPart
  | _ => .invalidArgument

/-- The text of a failure. -/
def message : Error → String
  | logarithmOfNonPositive => "log2 is only defined for positive integers"
  | negativeBitIndex => "bit index must be non-negative"
  | negativeExponent => "exponent must be non-negative"
  | nonPositiveModulus => "modulus must be positive"
  | rootOfNegative => "square root of a negative number"
  | nonPositiveRounds => "rounds must be positive"
  | emptyRange => "low must be <= high"
  | tooLargeForLength => "Integer too large for length"
  | bufferTooShort length needed =>
    length.text ++ " bytes cannot hold a " ++ toString needed ++ "-byte value"
  | conflictingSign => "conflicting sign information"
  | missingOctets => "buffer shorter than the requested length"
  | notHexadecimal quoted => "not a hexadecimal string: " ++ quoted
  | notDecimal quoted => "not a decimal string: " ++ quoted
  | negativeLength => "length must be non-negative"
  | sourceDoesNotFit => "source does not fit in target at this offset"
  | outsideSource => "offset/length outside the source buffer"
  | unequalCongruences => "congruences and moduli must have the same length"
  | noCongruence => "at least one congruence is required"
  | nonPositiveModuli => "moduli must be positive"
  | notThreeModFour modulus => modulus.text ++ " is not congruent to 3 mod 4"
  | factorialOfNegative => "factorial of a negative number"
  | factorialTooLarge n => n.text ++ "! does not fit in a machine word"
  | unequalBases => "bases and exponents must have the same length"
  | noBase => "at least one base is required"
  | unreducedExponent => "exponent must be reduced to a non-negative value"
  | notOneValue => "a Zp element is built from exactly one value"
  | notTwoCoordinates => "an EC point is built from exactly two coordinates"
  | outsideResidues value => value.text ++ " is outside [1, p)"
  | outsideSubgroup value => value.text ++ " is not a member of the order-q subgroup"
  | notCoordinates shown => shown ++ " are not coordinates in GF(p)"
  | notOnCurve x y curve => "(" ++ x.text ++ ", " ++ y.text ++ ") is not a point of " ++ curve
  | notResidueData shown => "cannot rebuild a Zp element from " ++ shown
  | notPointData shown => "cannot rebuild an EC point from " ++ shown
  | notEncoded => "element was not produced by byte encoding"
  | infinityEncodesNothing => "the point at infinity encodes no bytes"
  | noPointFound => "no curve point found for this byte string"
  | noInverse value modulus divisor =>
    "No inverse: gcd(" ++ value.text ++ ", " ++ modulus.text ++ ") = " ++ divisor.text
  | notCoprime => "moduli are not pairwise coprime"
  | zeroHasNoInverse => "zero has no inverse in GF(p)"
  | foreignElement shown groupType =>
    shown ++ " does not belong to this " ++ groupType ++ " group"
  | encodingTooLong length limit =>
    toString length ++ " bytes exceed the maximum of " ++ toString limit
  | sizeAndParameters => "pass either num_bits or params, not both"
  | unknownBackend shown => "unknown dlog backend " ++ shown
  | unknownResidueSet quoted => "unknown Zp parameter set " ++ quoted
  | invalidResidueSet quoted => "invalid safe-prime parameters " ++ quoted
  | unsupportedParameters shown => "unsupported parameter object " ++ shown
  | unsupportedResidueSize shown => "unsupported Zp group size " ++ shown
  | unsupportedCurveSize shown => "no curve of " ++ shown ++ " bits"
  | unknownCurve quoted => "unknown curve " ++ quoted
  | curveForm quoted => "curve " ++ quoted ++ " needs p = 3 mod 4 and cofactor 1"
  | invalidCurve quoted => "invalid curve parameters " ++ quoted
  | searchExhausted bits => "no safe prime of " ++ toString bits ++ " bits was drawn"
  | negativeOctetCount => "length argument must be non-negative"
  | decimalTooLong =>
    "Exceeds the limit (4300 digits) for integer string conversion; " ++
      "use sys.set_int_max_str_digits() to increase the limit"
  | baseNotInvertible => "pow() base not invertible"
  | symbolModulus => "y must be odd, prime, and >0"
  | negativeNatural => "Integer cannot be negative"
  | emptyDraw => "a must be <= b"
  | coefficientCount => "Only Weierstrass form y^2 = x^3 + ax + b supported"
  | negativeShift => "negative shift count"
  | exponentTooLarge => "pow() outrageous exponent"
  | noInverseValue => "No inverse value can be computed"
  | symbolOfNonPositive => "n must be a positive integer"
  | symbolOfEven => "n must be odd for the Jacobi symbol"
  | invalidDigits => "invalid digits"
  | notAscii => "string contains non-ASCII characters"
  | notIntegerLiteral shown => "invalid literal for int() with base 10: " ++ shown
  | decimalTextTooLong digits =>
    "Exceeds the limit (4300 digits) for integer string conversion: value has " ++
      toString digits ++ " digits; use sys.set_int_max_str_digits() to increase the limit"
  | noReciprocal => "invert() no inverse exists"
  | moduloZero => "division or modulo by zero"
  | zeroWindow => "integer division or modulo by zero"
  | doesNotFitOctets => "int too big to convert"
  | negativeOctets => "can't convert negative int to unsigned"
  | doesNotFitWord => "Python int too large to convert to C unsigned long"
  | doesNotFitFloat => "int too large to convert to float"
  | noSuchRow => "list index out of range"
  | doesNotFitIndex sort => "cannot fit '" ++ sort ++ "' into an index-sized integer"
  | noSuchObject => "no such object"
  | unassignable sort => "'" ++ sort ++ "' object does not support item assignment"
  | notNumeric => "mpz() requires numeric or string argument"
  | notIntegral sort =>
    "int() argument must be a string, a bytes-like object or a real number, not '" ++ sort ++ "'"
  | unhashable sort => "unhashable type: '" ++ sort ++ "'"
  | unordered relation left right =>
    "'" ++ relation ++ "' not supported between instances of '" ++ left ++ "' and '" ++ right ++
      "'"
  | unsupportedOperands operator left right =>
    "unsupported operand type(s) for " ++ operator ++ ": '" ++ left ++ "' and '" ++ right ++ "'"
  | noAttribute sort part =>
    "'" ++ sort ++ "' object has no attribute '" ++ part ++ "'"

/-- The numbers that a message writes. -/
def numbers : Error → List Number
  | bufferTooShort length _ => [length]
  | notThreeModFour modulus => [modulus]
  | factorialTooLarge n => [n]
  | outsideResidues value => [value]
  | outsideSubgroup value => [value]
  | notOnCurve x y _ => [x, y]
  | noInverse value modulus divisor => [value, modulus, divisor]
  | _ => []

/-- The failure that shows: a message with too long a number fails itself. -/
def shown (e : Error) : Error :=
  if e.numbers.any Number.isLong then .decimalTooLong else e

/-- The sort and the text under which a failure is reported. -/
def report (e : Error) : ErrorKind × String :=
  (e.shown.kind, e.shown.message)

/-- A failure whose message shows a value, if that can be shown. -/
def showing (cause : String → Error) : Option String → Error
  | some literal => cause literal
  | none => .decimalTooLong

end Error

end PrimeOrder
