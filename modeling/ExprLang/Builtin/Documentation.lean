import ExprLang.Function

/-! # The documentation of the built-in functions -/

namespace ExprLang

def Conversion.target : Conversion → String
  | .int => "i64"
  | .uint => "u64"
  | .integer k => (if k.isSigned then "i" else "u") ++ toString k.bits
  | .float32 => "f32"
  | .float64 => "f64"

def Comparison.symbol : Comparison → String
  | .greaterThan => ">"
  | .greaterThanEqual => ">="
  | .lessThan => "<"
  | .lessThanEqual => "<="

def Arithmetic.documentation : Arithmetic → Documentation
  | .add =>
    ⟨"adds two numbers of the same type returning a single numerical result",
      [("num1", "The first number to add."), ("num2", "The second number to add.")]⟩
  | .subtract =>
    ⟨"subtracts num2 from num1 returning a single numerical result",
      [("num1", "The number to subtract from."), ("num2", "The number to subtract.")]⟩
  | .multiply =>
    ⟨"multiplies two numbers returning a single numerical result",
      [("num1", "The first number to multiply."), ("num2", "The second number to multiply.")]⟩
  | .divide =>
    ⟨"divides two numbers returning a single numerical result",
      [("dividend", "The number to be divided."), ("divisor", "The number to divide by.")]⟩

def Builtin.documentation : Builtin → Documentation
  | .equals =>
    ⟨"compares 2 inputs returning a bool",
      [("val1", "The first value to compare"), ("val2", "The second value to compare")]⟩
  | .notEquals =>
    ⟨"Compares 2 inputs returning a bool.",
      [("val1", "The first value to compare."), ("val2", "The second value to compare.")]⟩
  | .switch =>
    ⟨"Switches on the first value. The following values are case/result pairs. " ++
      "If an even number of values is passed the last one is the default. " ++
      "With no default and no match, switch returns nil.",
      [("values",
        "variadic - the value to test, then case/result pairs and an optional default")]⟩
  | .and =>
    ⟨"Returns true if both inputs are true, else false.",
      [("val1", "The first bool value"), ("val2", "The second bool value")]⟩
  | .or =>
    ⟨"Returns true if either or both inputs are true, else false.",
      [("val1", "The first bool value"), ("val2", "The second bool value")]⟩
  | .not =>
    ⟨"Accepts a boolean and returns its inverse", [("value", "The value to invert.")]⟩
  | .compare c =>
    ⟨"Returns the result of val1 " ++ c.symbol ++ " val2. Values must be numeric or string.",
      [("val1", "The first value."), ("val2", "The second value.")]⟩
  | .nil =>
    ⟨"Returns what is passed. Used to implement parenthesis grouping.",
      [("value", "The value which will be returned unchanged.")]⟩
  | .addOrConcat =>
    ⟨"Calls add when both arguments are numeric, otherwise concatenates them.",
      [("val1", "The first value to add or concatenate."),
        ("val2", "The second value to add or concatenate.")]⟩
  | .arithmetic op => op.documentation
  | .pow =>
    ⟨"pow returns x to the power of y (x**y).",
      [("x", "The base number."), ("y", "The exponent.")]⟩
  | .mod =>
    ⟨"mod returns the remainder of dividend divided by divisor.",
      [("dividend", "The number to be divided."), ("divisor", "The number to divide by.")]⟩
  | .negate =>
    ⟨"negate returns the number with its sign flipped", [("number", "The number to negate.")]⟩
  | .convert c =>
    ⟨c.name ++ " converts the passed in number to " ++ c.target ++
      " or fails if conversion isn't possible", [("number", "The number to convert.")]⟩
  | .string =>
    ⟨"Converts an input into its display string", [("in", "The value to convert to a string.")]⟩
  | .concat =>
    ⟨"concatenates any number of strings returning a single string result",
      [("strs", "variadic - the strings to concatenate.")]⟩
  | .len => ⟨"returns the length of a string in bytes", [("in", "The string to measure.")]⟩
  | .substring =>
    ⟨"returns the substring of the input string from start to end - 1. " ++
      "If end is less than 1, everything to the end of the string is returned",
      [("input", "The string to take a substring from."),
        ("start", "The start index (counting from 0)."),
        ("end", "The end index. If this is less than 1, defaults to the end of the string.")]⟩
  | .instring =>
    ⟨"returns the start position in the input string of the search string " ++
      "or -1 if the search string is not found",
      [("input", "The string to search."), ("search", "The string to find in the input.")]⟩
  | .slice =>
    ⟨"Makes a new list containing the passed in values. " ++
      "Every value must have the type of the first one.",
      [("values", "variadic - any number of values of one type.")]⟩
  | .map =>
    ⟨"Makes a new map from the passed in entries. " ++
      "Keys and values must have the types of the first entry.",
      [("values", "variadic - any number of map entries.")]⟩
  | .entry =>
    ⟨"Creates a map entry with the passed in key and value.",
      [("key", "The map entry key."), ("value", "The map entry value.")]⟩
  | .select =>
    ⟨"Returns the elements of a list or map for which the predicate evaluates to true. " ++
      "For a map the predicate sees each value, not the key. " ++
      "Extra arguments are bound as ref0, ref1 and so on. " ++
      "Example: select(lib.GetBooks(), \"book\", book.Author.Name == ref0, name)",
      [("coll", "The list or map to select from."),
        ("forEach", "The name by which the predicate refers to each element."),
        ("expression", "The predicate, evaluated once per element."),
        ("refs", "variadic - values made available to the predicate.")]⟩
  | .indexOf =>
    ⟨"Returns the entry from the passed collection at the requested index.",
      [("coll", "The list or map from which to extract a value."),
        ("index", "The position or key to extract from coll.")]⟩
  | .count =>
    ⟨"Returns the number of elements in the passed in list or map.",
      [("in", "The collection to count.")]⟩

end ExprLang
