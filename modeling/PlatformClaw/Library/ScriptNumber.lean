/-! # Safe integers

Numbers of a script are exact as long as they stay within 53 bits. Code that
counts money checks for that, and the check is all the models need of numbers.
-/

namespace ScriptNumber

def maxSafeInteger : Int := 9007199254740991

def isSafeInteger (value : Int) : Bool :=
  -maxSafeInteger ≤ value && value ≤ maxSafeInteger

end ScriptNumber
