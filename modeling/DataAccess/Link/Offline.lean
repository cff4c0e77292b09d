import DataAccess.Link.Basic

/-! A link with no server behind it. -/
namespace DataAccess

structure Offline where
  deriving DecidableEq, Repr

instance : Link Offline where
  connect o _ := (.error (.link "connection refused"), o)
  query o _ _ _ := (.error (.link "connection closed"), o)
  release o _ := o
  finish o _ := (.ok (), o)

end DataAccess
