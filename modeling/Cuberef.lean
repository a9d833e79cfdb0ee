import Cuberef.Items
import Cuberef.Items.Algebra
import Cuberef.Items.Laws
import Cuberef.Items.Registry
import Cuberef.Database
import Cuberef.Inventory
import Cuberef.Inventory.Insert
import Cuberef.Inventory.Codec
import Cuberef.InventoryManager
import Cuberef.InventoryManager.Atomicity
import Cuberef.InventoryManager.Refinement
import Cuberef.View
import Cuberef.View.Panics
import Cuberef.View.Shared
import Cuberef.Player
import Cuberef.Player.Sessions
import Cuberef.Player.Writeback
import Cuberef.Player.Keys
import Cuberef.Player.Persistence
import Cuberef.Player.Reconnect
import Cuberef.Furnace
import Cuberef.Furnace.Dirty
import Cuberef.Furnace.Timing
import Cuberef.Vulkan
