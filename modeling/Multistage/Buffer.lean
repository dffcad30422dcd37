import Multistage.Binary64
import Multistage.Error
/-!
# Writing into a caller's buffer

Values are handed out by filling an array that the caller brings along.  Such an action is a state change of the
array that may fail, and the state is there after a failure too: that a failed action leaves the
buffer alone is a statement about it, and true because every check comes in front of the first write.
-/
namespace Multistage

abbrev BufferM := EStateM Error (Array Binary64)

namespace BufferM

def copyFrom (source : Array Binary64) : BufferM Unit := do
  attempt (checkLength .copyBuffer source.size (← get).size)
  set source

end BufferM
end Multistage
