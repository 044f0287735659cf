/-! The byte order mark, a character that may stand before a text without being part of it. -/
namespace ProviderRoles.ByteOrderMark

/-- The text without the mark at its front, if there is one. -/
def strip : List Char → List Char
  | c :: rest => if c = '\ufeff' then rest else c :: rest
  | [] => []

end ProviderRoles.ByteOrderMark
