/-!
# Words

How many words of 32 and of 64 bits there are, and how far integers with a sign reach.
-/
namespace PromptWeave

/-- The number of words of 32 bits. -/
def words32 : Nat := 4294967296

/-- The number of words of 64 bits. -/
def words64 : Nat := 18446744073709551616

/-- The least integer of 32 bits. -/
def leastInt32 : Int := -2147483648

/-- The greatest integer of 32 bits. -/
def greatestInt32 : Int := 2147483647

/-- The least integer of 64 bits. -/
def leastInt64 : Int := -9223372036854775808

/-- The greatest integer of 64 bits. -/
def greatestInt64 : Int := 9223372036854775807

end PromptWeave
