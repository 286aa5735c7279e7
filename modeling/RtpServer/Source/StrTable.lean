import RtpServer.Source.TypeDef

/-!
# String tables (`l_string.c`)

`value_to_str` has no bound on its loop. The model runs it for a number of rounds and says
whether it has returned, is still running or has read past the memory of the table.
-/
namespace RtpServer.Source.StrTable

/-- `str_table_t`; a `NULL` string is `none`. -/
structure StrTableT where
  value : Uint16
  str : Option String
  deriving DecidableEq

/-- `STR_TABLE_LINE`; the string is the constant's name. -/
def strTableLine (value : Uint16) (name : String) : StrTableT := ⟨value, some name⟩

def strTableEnd : StrTableT := ⟨0xFFFF, none⟩

inductive Outcome where
  | returned (str : Option String)
  | outside
  | running
  deriving DecidableEq

/-- The `while` loop with its 16-bit index. -/
def valueToStrFrom (value : Uint16) (table : List StrTableT) : (rounds : Nat) → Uint16 → Outcome
  | 0, _ => .running
  | rounds + 1, i =>
    match table[i.toNat]? with
    | none => .outside
    | some entry =>
      if value = entry.value then .returned entry.str
      else if entry.str = none then .returned (some "null")
      else valueToStrFrom value table rounds (i + 1)

def valueToStr (value : Uint16) (table : List StrTableT) (rounds : Nat) : Outcome :=
  valueToStrFrom value table rounds 0

end RtpServer.Source.StrTable
