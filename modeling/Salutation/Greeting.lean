/-
The greeting itself: a message, one space, and a name, each exactly as given.
-/

namespace Salutation

/-- The greeting of a name with a message. -/
def greet (message name : String) : String := message ++ " " ++ name

end Salutation
