import RunNBurn.KvCache.ByteSizeBound
import RunNBurn.KvCache.KvarnAttentionExactness
import RunNBurn.Inference.MuseDflashExactness
import RunNBurn.Generate.TextStopExactness
import RunNBurn.Generate.FilterChain
import RunNBurn.Generate.SpeculativeReturns
import RunNBurn.Generate.TwoModelExactness
import RunNBurn.Generate.DrafterLoopsExactness
import RunNBurn.Memory.ByteLruRefinement
import RunNBurn.Memory.ReuseHistoryExactness
import RunNBurn.Server.Worker
import RunNBurn.Server.DeltaExactness
import RunNBurn.Server.HistoryExactness
import RunNBurn.Server.HttpFraming
import RunNBurn.Gguf.TensorRanges
import RunNBurn.Gguf.SplitPaths
import RunNBurn.Tokenization.MergeExactness
import RunNBurn.Tokenization.SentencePieceExactness
import RunNBurn.Tokenization.StreamDecoder
import RunNBurn.Tokenization.EncodeTermination
import RunNBurn.Vulkan.ExpertArena
import RunNBurn.Vulkan.WeightCacheRuns
import RunNBurn.Gdn.PrefixExactness
import RunNBurn.Gdn.ChunkwiseExactness
import RunNBurn.Moe.GemmaExpertMajorExactness
import RunNBurn.Moe.DeepSeek4MoeExactness
import RunNBurn.Attention.DecodeFlashExactness
import RunNBurn.Multimodal.PromptExactness
import RunNBurn.Gemm.PackQ6k
import RunNBurn.Gemm.Q4kLayouts
import RunNBurn.Tensors.HostIdentities
import RunNBurn.Tensors.LayoutExactness
import RunNBurn.Moe.SharedExpertRoutingExactness
import RunNBurn.Nemotron.MambaExactness
import RunNBurn.Inference.KvShareExactness
import RunNBurn.Core.GraphRuns
