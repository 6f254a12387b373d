import Firewall.Family

namespace Firewall

structure Table where
  family : Family
  name : String
  deriving DecidableEq, Repr

namespace Table

/-- Tables are listed by family, then by name. -/
def before (a b : Table) : Bool :=
  a.family.rank < b.family.rank || (a.family == b.family && a.name < b.name)

def label (t : Table) : String := t.family.nftName ++ " " ++ t.name

end Table
end Firewall
