import DescriptorSql.CharClass.Ranges

/-!
# `CharClass/Connector.lean` — characters that join words

Connector punctuation and the two join controls. Unicode 16.0.
-/

set_option autoImplicit false

namespace DescriptorSql.CharClass

/-- Characters of the general category Pc; the low line is the ASCII one. -/
def connectorPunctuation : Ranges :=
  [(0x5F, 0x5F), (0x203F, 0x2040), (0x2054, 0x2054), (0xFE33, 0xFE34), (0xFE4D, 0xFE4F),
   (0xFF3F, 0xFF3F)]

/-- Zero-width non-joiner and zero-width joiner. -/
def joinControl : Ranges := [(0x200C, 0x200D)]

end DescriptorSql.CharClass
